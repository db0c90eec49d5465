import Rendezvous.Proofs.Session.Veil.Signals

/-!
# Steps regardless of payloads

A step comes to the same on two machines that differ at most in payloads, unless it brings bytes to
the long poll. Of such bytes it is enough that the streams they are part of differ in payloads only.
-/

namespace Rendezvous

open Wire SessionM Machine

/-! ### Who hears of a socket -/

namespace Machine

/-- The bytes that the long poll holds. -/
def held (m : Machine) : Bytes := (m.session.notify.map (·.framer.buffer)).getD []

/-- The long poll holds what its framer has buffered. -/
theorem held_of_eq {m : Machine} {n : NotifyLink} (h : m.session.notify = some n) :
    m.held = n.framer.buffer := by
  rw [held, h]
  rfl

/-- The link that is over a socket, if the session has one over it. -/
def hearer (m : Machine) (k : Nat) : Option Role :=
  if m.session.command.any (·.socket = k) then some .command
  else if m.session.notify.any (·.socket = k) then some .notify
  else none

/-- The machine with an event of a socket taken note of. -/
def mark (m : Machine) (k : Nat) (event : Channel.Event) : Machine :=
  { m with host := m.host.setPhase k ((m.host.phaseOf k).after event) }

end Machine

/-- The bytes that a step brings to the long poll, if it does. -/
def Step.polled? (m : Machine) : Step → Option Bytes
  | .socket ref (.received bytes) =>
    if (m.find? ref).bind m.hearer = some .notify then some bytes else none
  | _ => none

namespace Machine

variable {held held' : Bytes} {m m' : Machine} {tell : Event → SessionM Unit} {k : Nat}

private theorem Twin.mark (hm : Twin held held' m m') (k : Nat) {event event' : Channel.Event}
    (hphase : ∀ p : Channel.Phase, p.after event' = p.after event) :
    Twin held held' (m.mark k event) (m'.mark k event') := by
  have hsame : (m'.host.phaseOf k).after event' = (m.host.phaseOf k).after event := by
    rw [hm.host.phaseOf, hphase]
  rw [Machine.mark, Machine.mark, hsame]
  cases hm with
  | intro hlinks hhosts => exact .intro hlinks (hhosts.setPhase k _)

private theorem Twin.hearer (hm : Twin held held' m m') (k : Nat) : m'.hearer k = m.hearer k := by
  have hnotify : m'.session.notify.any (·.socket = k) = m.session.notify.any (·.socket = k) := by
    rcases hm.notify_cases with ⟨hnone, hnone'⟩ | ⟨n, n', hsome, hsome', hlink⟩
    · rw [hnone, hnone']
    · rw [hsome, hsome', Option.any_some, Option.any_some, hlink.socket]
  rw [Machine.hearer, Machine.hearer, hm.command, hnotify]

private theorem onSocket_apply (tell : Event → SessionM Unit) (k : Nat) (event : Channel.Event)
    (m : Machine) :
    onSocket tell k event m = (match m.hearer k with
      | some .command => onCommand tell event
      | some .notify => onNotify tell event
      | none => pure ()) (m.mark k event) := by
  rw [onSocket, bind_apply]
  show (if m.session.command.any (·.socket = k) then onCommand tell event
    else if m.session.notify.any (·.socket = k) then onNotify tell event
    else pure ()) (m.mark k event) = _
  rw [Machine.hearer]
  split
  · rfl
  · split <;> rfl

private theorem agree_onSocket (htell : TellsBlindly held held' tell) {event : Channel.Event}
    (hapart : m.hearer k = some .notify → ∀ bytes, event ≠ .received bytes) :
    Agree held held' (onSocket tell k event) (onSocket tell k event) m m' := by
  intro hm
  have hmark : Twin held held' (m.mark k event) (m'.mark k event) := hm.mark k fun _ ↦ rfl
  rw [onSocket_apply, onSocket_apply, hm.hearer]
  cases hhearer : m.hearer k with
  | none => exact isBlind_pure _ _ _ hmark
  | some role =>
    cases role with
    | command => exact isBlind_onCommand htell event _ _ hmark
    | notify => exact isBlind_onNotify htell (hapart hhearer) _ _ hmark

/-- Bytes over a socket that the session is done with are lost on it. -/
theorem agree_onSocket_of_unheard (hunheard : m.hearer k = none) (bytes bytes' : Bytes) :
    Agree held held' (onSocket tell k (.received bytes)) (onSocket tell k (.received bytes'))
      m m' := by
  intro hm
  rw [onSocket_apply, onSocket_apply, hm.hearer, hunheard]
  exact isBlind_pure _ _ _ (hm.mark k fun _ ↦ rfl)

/-! ### Steps -/

private theorem react_socket (tell : Event → SessionM Unit) (ref : SocketRef)
    (event : Channel.Event) (m : Machine) :
    Machine.react tell (.socket ref event) m = (match m.find? ref with
      | none => return Reply.absent
      | some k => do
        onSocket tell k event
        return Reply.done) m := rfl

/-- A step without bytes for the long poll comes to the same. -/
theorem agree_react (htell : TellsBlindly held held' tell) {s : Step} (hs : s.polled? m = none) :
    Agree held held' (Machine.react tell s) (Machine.react tell s) m m' := by
  have hgrant (f : Policy → Policy) : IsBlind held held' (do
      modify (·.grant f)
      return Reply.answer none) :=
    (isBlind_modify fun _ _ hm ↦ hm.grant f).bind fun _ ↦ isBlind_pure _
  cases s with
  | call c => exact (isBlind_perform htell c).bind (fun _ ↦ isBlind_pure _) m m'
  | observe =>
    refine isBlind_get (fun m m' hm ↦ ?_) m m'
    rw [hm.observed]
    refine Agree.ite Iff.rfl (fun _ ↦ isBlind_throw _ m m') fun _ ↦ ?_
    refine IsBlind.bind (isBlind_modify fun _ _ hm ↦ ?_) (fun _ ↦ isBlind_pure _) m m'
    cases hm with
    | intro hlinks hhosts => exact .intro hlinks hhosts
  | answer ip =>
    refine isBlind_get (fun m m' hm ↦ ?_) m m'
    rw [hm.session]
    refine Agree.ite Iff.rfl (fun _ ↦ ?_) fun _ ↦ isBlind_pure _ m m'
    exact (isBlind_onLookup htell ip).bind (fun _ ↦ isBlind_pure _) m m'
  | lateAnswer ip => exact (isBlind_onAnswer htell ip).bind (fun _ ↦ isBlind_pure _) m m'
  | fire timer =>
    refine isBlind_get (fun m m' hm ↦ ?_) m m'
    rw [hm.host.timers]
    refine Agree.ite Iff.rfl (fun _ ↦ ?_) fun _ ↦ isBlind_pure _ m m'
    exact (isBlind_onTimer htell timer).bind (fun _ ↦ isBlind_pure _) m m'
  | socket ref event =>
    intro hm
    rw [react_socket, react_socket, hm.find?]
    cases hfound : m.find? ref with
    | none => exact isBlind_pure _ m m' hm
    | some k =>
      have hapart : m.hearer k = some .notify → ∀ bytes, event ≠ .received bytes := by
        rintro hheard bytes rfl
        rw [Step.polled?, hfound, Option.bind_some, if_pos hheard] at hs
        cases hs
      exact (agree_onSocket htell hapart).bind (fun _ n n' _ ↦ isBlind_pure _ n n') hm
  | accept role granted => exact hgrant _ m m'
  | sendable role granted => exact hgrant _ m m'
  | resolvable granted => exact hgrant _ m m'

/-- Bytes that no link hears come to the same, whatever they are. -/
theorem agree_react_of_unheard {ref : SocketRef} (hunheard : (m.find? ref).bind m.hearer = none)
    (bytes bytes' : Bytes) :
    Agree held held' (Machine.react tell (.socket ref (.received bytes)))
      (Machine.react tell (.socket ref (.received bytes'))) m m' := by
  intro hm
  rw [react_socket, react_socket, hm.find?]
  cases hfound : m.find? ref with
  | none => exact isBlind_pure _ m m' hm
  | some k =>
    rw [hfound, Option.bind_some] at hunheard
    exact (agree_onSocket_of_unheard hunheard bytes bytes').bind
      (fun _ n n' _ ↦ isBlind_pure _ n n') hm

/-- Bytes by which two streams go on that came over the long polls. -/
theorem matches_react_of_polled (htell : ∀ held held', TellsBlindly held held' tell)
    (hkeeps : Keeps (GoesBy m.session.selfId) tell) (hm : Twin held held' m m') {ref : SocketRef}
    (hheard : (m.find? ref).bind m.hearer = some .notify) {bytes bytes' : Bytes}
    (hlike : UpToPayloads m.session.selfId (m.held ++ bytes) (m'.held ++ bytes')) :
    ∃ out out',
      UpToPayloads.ReadAlike m.session.selfId (m.held ++ bytes) (m'.held ++ bytes') out out' ∧
      Matches out.2.2.buffer out'.2.2.buffer (Machine.react tell (.socket ref (.received bytes)) m)
        (Machine.react tell (.socket ref (.received bytes')) m') := by
  obtain ⟨k, hfound, hhearer⟩ := Option.bind_eq_some_iff.1 hheard
  have hmark : Twin held held' (m.mark k (.received bytes)) (m'.mark k (.received bytes')) :=
    hm.mark k fun _ ↦ rfl
  rcases hm.notify_cases with ⟨hnone, -⟩ | ⟨n, n', hsome, hsome', hlink⟩
  · simp only [Machine.hearer, hnone, Option.any_none] at hhearer
    split at hhearer <;> simp at hhearer
  · rw [held_of_eq hsome, held_of_eq hsome'] at hlike ⊢
    refine ⟨_, _, hlink.reads hlike, ?_⟩
    rw [react_socket, react_socket, hm.find?, hfound]
    refine Matches.bind ?_ fun _ n n' _ ↦ isBlind_pure _ n n'
    rw [onSocket_apply, onSocket_apply, hm.hearer, hhearer]
    exact onNotify_received htell hmark hkeeps hsome hsome' hlike

end Machine

end Rendezvous
