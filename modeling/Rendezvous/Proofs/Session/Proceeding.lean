import Rendezvous.Proofs.Session.Course
import Rendezvous.Proofs.Session.Ledger

/-!
# All that a session does is in keeping with what it counts on

A step first brings the session something from outside: a lookup is over, a timer has fired, a
socket has an event. What the session does then are requests in keeping with what it counts on,
since those of its single acts are.
-/

namespace Rendezvous

open SessionM

namespace Machine

variable {m : Machine}

private theorem proceeds_startLookup (m : Machine) (host : String) (port : Int) :
    m.Proceeds (after (startLookup host port) m) := by
  apply ensures_const.1
  rw [ensures_startLookup]
  refine ⟨fun _ ↦ .refl m, fun resolver hstart ↦ ?_⟩
  rw [Resolver.start?] at hstart
  split at hstart
  · next hable =>
    cases hstart
    rw [Bool.and_eq_true, Bool.not_eq_true'] at hable
    refine proceeds_ask (.lookup host port) rfl ?_
    exact .lookup (l := m.ledger) hable.1 host port
  · cases hstart

private theorem proceeds_armRetry (m : Machine) : m.Proceeds (after armRetry m) := by
  apply ensures_const.1
  rw [ensures_armRetry]
  refine ⟨fun _ ↦ .refl m, fun retry harm ↦ ?_⟩
  rw [RetryTimer.arm?] at harm
  split at harm
  · cases harm
  · next hdisarmed =>
    cases harm
    have hnone : m.session.retry.live = none :=
      Option.isNone_iff_eq_none.1 (Option.isSome_eq_false_iff.1 (Bool.not_eq_true _ ▸ hdisarmed))
    refine proceeds_ask (.schedule m.host.timers m.session.retry.delay) rfl ?_
    exact .schedule (l := m.ledger) hnone _ _

/-- Asking for nothing out of keeping is a course that computations can be led along. -/
theorem isCourse_proceeds : IsCourse Proceeds where
  refl := .refl
  trans := .trans
  note := proceeds_note
  remembered m _ _ _ hresolver hlive := proceeds_of_host (.refl m.host) hresolver hlive
  observe m := proceeds_of_host (.refl m.host) rfl rfl
  grant _ _ := proceeds_of_eq rfl rfl
  reset := proceeds_reset
  quiet := proceeds_quiet
  openLinks := proceeds_openLinks
  lookup := proceeds_startLookup
  arm := proceeds_armRetry
  start {_ c} _ what request := proceeds_of_host (c.proceeds_start what request _ _) rfl rfl
  flush {_ c} _ := proceeds_of_host (c.proceeds_flush _) rfl rfl
  abort {m _} _ := proceeds_of_host (.refl m.host) rfl rfl
  receive {_ c} _ bytes _ := proceeds_of_host (c.proceeds_receive bytes _) rfl rfl
  refuse {m c} _ bytes _ _ := by
    refine Proceeds.trans ?_ (proceeds_reset _)
    exact proceeds_of_host (c.proceeds_receive bytes m.host) rfl rfl
  dialled {m n} _ address := proceeds_of_host (m.host.proceeds_connect n.socket address) rfl rfl
  issueWait {_ n} _ id := proceeds_of_host (n.proceeds_issueWait id _) rfl rfl
  rearm {_ n} _ id address := proceeds_of_host (n.proceeds_rearm id address _) rfl rfl
  abortNotify {m _} _ := proceeds_of_host (.refl m.host) rfl rfl
  receiveNotify {_ n} _ bytes _ := proceeds_of_host (n.proceeds_receive bytes _) rfl rfl
  refuseNotify {m n} _ bytes _ _ := by
    refine Proceeds.trans ?_ (proceeds_reset _)
    exact proceeds_of_host (n.proceeds_receive bytes m.host) rfl rfl

/-- Whatever a step is, the session then does what is in keeping with what it counts on. -/
theorem proceeds_step (m : Machine) (depth : Nat) (s : Step) :
    (m.struck s).Proceeds (m.step .silent depth s).2 :=
  isCourse_proceeds.step .silent depth m s

end Machine

namespace SessionM

/-- Whether all that a computation asks for is in keeping with what the session counts on. -/
def Proceeds {α : Type} (x : SessionM α) (m : Machine) : Prop := m.Proceeds (after x m)

/-- An observer that only listens asks for nothing. -/
theorem proceeds_silent (depth : Nat) (e : Event) (m : Machine) :
    Proceeds (Observer.silent.tell depth e) m :=
  Machine.isCourse_proceeds.runs_tell .silent depth e m

/-- The answer to a signal asks for nothing out of keeping. -/
theorem proceeds_react {m : Machine} {tell : Event → SessionM Unit}
    (htell : ∀ e m, Proceeds (tell e) m) (signal : Signal) : Proceeds (react tell signal) m :=
  Machine.isCourse_proceeds.runs_react htell signal

end SessionM

end Rendezvous
