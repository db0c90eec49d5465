import Mathlib.Logic.Function.Basic
import Rendezvous.Proofs.Session.Restart.Lift

/-!
# What a session asks, by what it counts on

A session counts on the phases of its sockets, on whether a lookup is in flight, and on the timer
that is due. Every request goes with a change of these: a socket is dialled only while it is closed,
a lookup is started only where none is in flight, a timer is set only where none is due, and only
the one that is due is taken back. All that a session does, whatever brought it about and wherever a
fault stops it, is requests of this kind one after another.
-/

namespace Rendezvous

/-- What a session counts on: the phases of the sockets, whether a lookup is in flight, and the
timer that is due. -/
structure Ledger where
  phaseOf : Nat → Channel.Phase
  looking : Bool
  due : Option Nat

namespace Ledger

/-- Puts a socket into a phase. -/
def setPhase (l : Ledger) (k : Nat) (p : Channel.Phase) : Ledger :=
  { l with phaseOf := Function.update l.phaseOf k p }

/-- What a request goes with. -/
inductive Turn : Ledger → Action → Ledger → Prop where
  | connect {l : Ledger} {k : Nat} (closed : l.phaseOf k = .closed) (address : Address) :
      Turn l (.connect k address) (l.setPhase k .connecting)
  | send (l : Ledger) (k : Nat) (bytes : Bytes) : Turn l (.send k bytes) l
  | close (l : Ledger) (k : Nat) : Turn l (.close k) (l.setPhase k .closed)
  | lookup {l : Ledger} (idle : l.looking = false) (host : String) (port : Int) :
      Turn l (.lookup host port) { l with looking := true }
  | cancelLookup (l : Ledger) : Turn l .cancelLookup { l with looking := false }
  | schedule {l : Ledger} (none : l.due = none) (t : Nat) (delay : Float) :
      Turn l (.schedule t delay) { l with due := some t }
  | cancelTimer {l : Ledger} {t : Nat} (live : l.due = some t) :
      Turn l (.cancelTimer t) { l with due := Option.none }

/-- What requests in order go with. -/
inductive Turns : Ledger → List Action → Ledger → Prop where
  | nil (l : Ledger) : Turns l [] l
  | cons {l l' l'' : Ledger} {a : Action} {rest : List Action} (head : l.Turn a l')
      (tail : Turns l' rest l'') : Turns l (a :: rest) l''

variable {l l' l'' : Ledger} {a : Action} {first second : List Action}

private theorem Turn.turns (h : l.Turn a l') : l.Turns [a] l' := .cons h (.nil _)

private theorem Turns.trans (h : l.Turns first l') (h' : l'.Turns second l'') :
    l.Turns (first ++ second) l'' := by
  induction h with
  | nil => exact h'
  | cons head _ ih => exact .cons head (ih h')

end Ledger

/-! ### Requests of sockets -/

namespace Host

variable {ν : Type} {a b c : Host ν}

/-- What was logged earlier was asked for first. -/
theorem actions_append (new old : List (LogEntry ν)) :
    actions (new ++ old) = actions old ++ actions new := by
  simp [actions]

/-- Setting a phase updates the phases at one socket. -/
theorem phaseOf_setPhase_eq {h : Host ν} {k : Nat} (hmade : k < h.sockets.length)
    (p : Channel.Phase) : (h.setPhase k p).phaseOf = Function.update h.phaseOf k p := by
  funext j
  by_cases hj : k = j
  · subst hj
    rw [phaseOf_setPhase hmade, Function.update_self]
  · rw [phaseOf_setPhase_of_ne h hj, Function.update_of_ne (Ne.symm hj)]

/-- Only sockets were asked for anything, each in keeping with its phase. -/
def Proceeds (before after : Host ν) : Prop :=
  ∃ new, after.log = new ++ before.log ∧ ∀ l : Ledger, l.phaseOf = before.phaseOf →
    l.Turns (actions new) { l with phaseOf := after.phaseOf }

/-- Where nothing happens nothing is asked for. -/
theorem Proceeds.refl (h : Host ν) : h.Proceeds h := by
  refine ⟨[], rfl, ?_⟩
  rintro ⟨_, looking, due⟩ rfl
  exact .nil _

private theorem Proceeds.trans (hab : a.Proceeds b) (hbc : b.Proceeds c) : a.Proceeds c := by
  obtain ⟨first, hfirst, hturns⟩ := hab
  obtain ⟨second, hsecond, hturns'⟩ := hbc
  refine ⟨second ++ first, ?_, fun l hl ↦ ?_⟩
  · rw [hsecond, hfirst, List.append_assoc]
  · rw [actions_append]
    exact (hturns l hl).trans (hturns' _ rfl)

/-- A request that goes with a change of one socket. -/
theorem proceeds_ask {h h' : Host ν} (asked : Action) (hlog : h'.log = .action asked :: h.log)
    (hturn : ∀ l : Ledger, l.phaseOf = h.phaseOf → l.Turn asked { l with phaseOf := h'.phaseOf }) :
    h.Proceeds h' :=
  ⟨[.action asked], hlog, fun l hl ↦ (hturn l hl).turns⟩

private theorem proceeds_close (h : Host ν) (k : Nat) : h.Proceeds (h.close k) := by
  refine proceeds_ask (.close k) rfl ?_
  rintro ⟨_, looking, due⟩ rfl
  have hphase : (h.close k).phaseOf = Function.update h.phaseOf k .closed := by
    funext j
    rw [phaseOf_close, Function.update_apply]
    simp only [eq_comm]
  rw [hphase]
  exact .close _ k

/-- Connecting asks for nothing out of phase. -/
theorem proceeds_connect (h : Host ν) (k : Nat) (address : Address) :
    h.Proceeds (h.connect k address).2 := by
  rcases h.connect_cases k address with ⟨hdialled, hclosed, hmade⟩ | hrefused
  · rw [hdialled]
    refine proceeds_ask (.connect k address) rfl ?_
    rintro ⟨_, looking, due⟩ rfl
    have hphase : ((h.setPhase k .connecting).ask (.connect k address)).phaseOf =
        Function.update h.phaseOf k .connecting := phaseOf_setPhase_eq hmade _
    rw [hphase]
    exact .connect hclosed address
  · rw [hrefused]
    exact .refl h

private theorem proceeds_send (h : Host ν) (k : Nat) (bytes : Bytes) :
    h.Proceeds (h.send k bytes).2 := by
  rcases h.send_cases k bytes with ⟨hsent, -⟩ | hrefused
  · rw [hsent]
    refine proceeds_ask (.send k bytes) rfl ?_
    rintro ⟨_, looking, due⟩ rfl
    exact .send _ k bytes
  · rw [hrefused]
    exact .refl h

/-- A new socket is closed, as if it had been there before. -/
theorem proceeds_makeSocket (h : Host ν) (role : Role) : h.Proceeds (h.makeSocket role).2 := by
  refine ⟨[], rfl, ?_⟩
  rintro ⟨_, looking, due⟩ rfl
  have hphase : (h.makeSocket role).2.phaseOf = h.phaseOf := funext (h.phaseOf_makeSocket role)
  rw [hphase]
  exact .nil _

end Host

/-! ### Requests of links -/

/-- Starting an exchange asks for nothing out of phase. -/
theorem CommandLink.proceeds_start {ν : Type} (c : CommandLink) (what : Exchange) (bytes : Bytes)
    (address : Address) (h : Host ν) : h.Proceeds (c.start what bytes address h).2.2 := by
  rw [start]
  split
  · exact .refl h
  · have hconnect := h.proceeds_connect c.socket address
    rcases hout : h.connect c.socket address with ⟨_ | _, after⟩ <;> simpa [hout] using hconnect

/-- Flushing asks for nothing out of phase. -/
theorem CommandLink.proceeds_flush {ν : Type} (c : CommandLink) (h : Host ν) :
    h.Proceeds (c.flush h).2.2 := by
  rw [flush]
  split
  · exact .refl h
  · next bytes _ =>
    have hsend := h.proceeds_send c.socket bytes
    rcases hout : h.send c.socket bytes with ⟨_ | _, after⟩ <;> simpa [hout] using hsend

/-- Receiving asks for nothing out of phase. -/
theorem CommandLink.proceeds_receive {ν : Type} (c : CommandLink) (bytes : Bytes) (h : Host ν) :
    h.Proceeds (c.receive bytes h).2.2 := by
  rw [receive]
  split
  · exact .refl h
  · exact .refl h
  · exact h.proceeds_close c.socket

/-- Issuing a wait asks for nothing out of phase. -/
theorem NotifyLink.proceeds_issueWait {ν : Type} (n : NotifyLink) (id : Int) (h : Host ν) :
    h.Proceeds (n.issueWait id h).2.2 := by
  rw [issueWait]
  split
  · exact .refl h
  · next request _ => exact h.proceeds_send n.socket request

/-- Rearming asks for nothing out of phase. -/
theorem NotifyLink.proceeds_rearm {ν : Type} (n : NotifyLink) (id : Int) (address : Address)
    (h : Host ν) : h.Proceeds (n.rearm id address h).2.2 := by
  rw [rearm]
  split
  · exact h.proceeds_connect n.socket address
  · exact n.proceeds_issueWait id h

/-- Receiving asks for nothing out of phase. -/
theorem NotifyLink.proceeds_receive {ν : Type} (n : NotifyLink) (bytes : Bytes) (h : Host ν) :
    h.Proceeds (n.receive bytes h).2.2.2 := by
  simp only [receive]
  split
  · exact h.proceeds_close n.socket
  · exact .refl h

/-! ### Requests of a machine -/

namespace Machine

/-- What the session counts on. -/
def ledger (m : Machine) : Ledger where
  phaseOf := m.host.phaseOf
  looking := m.session.resolver.inFlight
  due := m.session.retry.live

/-- What was asked is in keeping with what the session counted on. -/
def Proceeds (before after : Machine) : Prop :=
  ∃ new, after.host.log = new ++ before.host.log ∧
    before.ledger.Turns (Host.actions new) after.ledger

variable {m m' m'' : Machine}

/-- Nothing is asked where nothing changes that the session counts on. -/
theorem proceeds_of_eq (hlog : m'.host.log = m.host.log) (hledger : m'.ledger = m.ledger) :
    m.Proceeds m' := ⟨[], hlog, hledger ▸ .nil _⟩

/-- Where nothing happens the ledger stays. -/
theorem Proceeds.refl (m : Machine) : m.Proceeds m := proceeds_of_eq rfl rfl

/-- What is in keeping with the ledger twice is in keeping with it. -/
theorem Proceeds.trans (h : m.Proceeds m') (h' : m'.Proceeds m'') : m.Proceeds m'' := by
  obtain ⟨first, hfirst, hturns⟩ := h
  obtain ⟨second, hsecond, hturns'⟩ := h'
  refine ⟨second ++ first, ?_, ?_⟩
  · rw [hsecond, hfirst, List.append_assoc]
  · rw [Host.actions_append]
    exact hturns.trans hturns'

/-- Only sockets were asked for anything. -/
theorem proceeds_of_host (hhost : m.host.Proceeds m'.host)
    (hresolver : m'.session.resolver = m.session.resolver)
    (hlive : m'.session.retry.live = m.session.retry.live) : m.Proceeds m' := by
  obtain ⟨new, hlog, hturns⟩ := hhost
  refine ⟨new, hlog, ?_⟩
  have hledger : m'.ledger = { m.ledger with phaseOf := m'.host.phaseOf } := by
    simp only [ledger, hresolver, hlive]
  exact hledger ▸ hturns m.ledger rfl

/-- One request. -/
theorem proceeds_ask (asked : Action) (hlog : m'.host.log = .action asked :: m.host.log)
    (hturn : m.ledger.Turn asked m'.ledger) : m.Proceeds m' := ⟨[.action asked], hlog, hturn.turns⟩

/-- A note asks for nothing. -/
theorem proceeds_note (m : Machine) (n : Note) : m.Proceeds (m.note n) :=
  ⟨[.note n], rfl, .nil _⟩

private theorem proceeds_cancelRetry (m : Machine) : m.Proceeds m.cancelRetry := by
  rw [cancelRetry]
  split
  · exact .refl m
  · next timer hlive =>
    refine proceeds_ask (.cancelTimer timer) rfl ?_
    exact .cancelTimer hlive

private theorem proceeds_cancelLookup (m : Machine) : m.Proceeds m.cancelLookup := by
  rw [cancelLookup]
  split
  · refine proceeds_ask .cancelLookup rfl ?_
    exact .cancelLookup m.ledger
  · exact .refl m

private theorem proceeds_closeCommand (m : Machine) : m.Proceeds m.closeCommand := by
  rw [closeCommand]
  split
  · exact .refl m
  · next link _ => exact proceeds_of_host (m.host.proceeds_close link.socket) rfl rfl

private theorem proceeds_closeNotify (m : Machine) : m.Proceeds m.closeNotify := by
  rw [closeNotify]
  split
  · exact .refl m
  · next link _ => exact proceeds_of_host (m.host.proceeds_close link.socket) rfl rfl

/-- Keeping quiet takes back only what is under way. -/
theorem proceeds_quiet (m : Machine) : m.Proceeds m.quiet :=
  m.proceeds_cancelRetry.trans <| (proceeds_cancelLookup _).trans (proceeds_closeNotify _)

/-- Tearing down takes back only what is under way. -/
theorem proceeds_reset (m : Machine) : m.Proceeds m.reset :=
  m.proceeds_cancelRetry.trans <| (proceeds_cancelLookup _).trans <|
    (proceeds_closeCommand _).trans <| (proceeds_closeNotify _).trans (proceeds_of_eq rfl rfl)

/-- Opening links closes sockets that are open. -/
theorem proceeds_openLinks (m : Machine) : m.Proceeds m.openLinks := by
  refine m.proceeds_closeCommand.trans <| (proceeds_closeNotify _).trans ?_
  exact proceeds_of_host ((Host.proceeds_makeSocket _ _).trans (Host.proceeds_makeSocket _ _))
    rfl rfl

end Machine

end Rendezvous
