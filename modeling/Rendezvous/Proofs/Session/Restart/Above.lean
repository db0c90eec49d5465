import Rendezvous.Proofs.Host
import Rendezvous.Session.Step

/-!
# The same machine on a host with a past

A host that has been in use before has sockets, timers and a log already. A machine above it is the
same machine whose sockets and timers have numbers that come after those. What is asked of a host
in use is what is asked of an unused one, with shifted numbers, as long as both grant the same
things from then on.
-/

namespace Rendezvous

/-- How many sockets and timers there were before. -/
structure Offset where
  sockets : Nat
  timers : Nat
  deriving DecidableEq

/-! ### Shifting numbers -/

variable (d : Offset)

/-- A link over a shifted socket. -/
def CommandLink.shift (l : CommandLink) : CommandLink := { l with socket := d.sockets + l.socket }

/-- A link over a shifted socket. -/
def NotifyLink.shift (l : NotifyLink) : NotifyLink := { l with socket := d.sockets + l.socket }

/-- A retry by a shifted timer. -/
def RetryTimer.shift (t : RetryTimer) : RetryTimer := { t with live := t.live.map (d.timers + ·) }

/-- A session over shifted sockets and timers. -/
def Session.shift (s : Session) : Session := {
  s with
  retry := s.retry.shift d
  command := s.command.map (CommandLink.shift d)
  notify := s.notify.map (NotifyLink.shift d) }

/-- A request of shifted sockets and timers. -/
def Action.shift : Action → Action
  | .connect socket address => .connect (d.sockets + socket) address
  | .send socket bytes => .send (d.sockets + socket) bytes
  | .close socket => .close (d.sockets + socket)
  | .lookup host port => .lookup host port
  | .cancelLookup => .cancelLookup
  | .schedule timer delay => .schedule (d.timers + timer) delay
  | .cancelTimer timer => .cancelTimer (d.timers + timer)

/-- A line of a log of shifted sockets and timers. -/
def LogEntry.shift : LogEntry Note → LogEntry Note
  | .action a => .action (a.shift d)
  | .note (.heard event session) => .note (.heard event (session.shift d))
  | .note (.called call answer) => .note (.called call answer)

/-- A step about a shifted socket or timer. -/
def Step.shift (d : Offset) : Step → Step
  | .socket (.number k) event => .socket (.number (d.sockets + k)) event
  | .fire timer => .fire (d.timers + timer)
  | s => s

private theorem LogEntry.isClosing_shift (l : LogEntry Note) :
    (l.shift d).isClosing = l.isClosing := by
  rcases l with (_ | _ | _ | _ | _ | _ | _) | (_ | _) <;> rfl

/-- Numbers that come after none stay. -/
theorem Action.shift_zero (a : Action) : a.shift ⟨0, 0⟩ = a := by
  cases a <;> simp [shift]

/-- Numbers that come after none stay. -/
theorem Step.shift_zero (s : Step) : s.shift ⟨0, 0⟩ = s := by
  cases s with
  | socket ref event => cases ref <;> simp [shift]
  | fire timer => simp [shift]
  | _ => rfl

/-! ### Retries -/

private theorem RetryTimer.isArmed_shift (t : RetryTimer) : (t.shift d).isArmed = t.isArmed :=
  Option.isSome_map

/-- A timer is armed alike under numbers that come later. -/
theorem RetryTimer.arm?_shift (t : RetryTimer) (timer : Nat) :
    (t.shift d).arm? (d.timers + timer) = (t.arm? timer).map (RetryTimer.shift d) := by
  rw [arm?, isArmed_shift, arm?]
  split <;> rfl

/-- A timer fires alike under numbers that come later. -/
theorem RetryTimer.fire?_shift (t : RetryTimer) (timer : Nat) :
    (t.shift d).fire? (d.timers + timer) = (t.fire? timer).map (RetryTimer.shift d) := by
  have hlive : (t.shift d).live = some (d.timers + timer) ↔ t.live = some timer := by
    rw [shift]
    cases t.live <;> simp
  rw [fire?, fire?]
  simp only [hlive]
  split <;> rfl

/-! ### Hosts -/

/-- What is granted from a moment on. -/
def Policy.since (p : Policy) (start : Nat) : Policy where
  accepts o := p.accepts { o with moment := o.moment + start }
  sends o := p.sends { o with moment := o.moment + start }
  resolves moment := p.resolves (moment + start)

/-- A policy from a moment on that is a moment on. -/
theorem Policy.since_since (p : Policy) (start start' : Nat) :
    (p.since start).since start' = p.since (start' + start) := by
  simp only [since, Nat.add_assoc]

/-- What a step makes of what is granted. -/
def Step.regrant : Step → Policy → Policy
  | .accept role granted, p =>
    { p with accepts := fun o ↦ if o.role = role then granted else p.accepts o }
  | .sendable role granted, p =>
    { p with sends := fun o ↦ if o.role = role then granted else p.sends o }
  | .resolvable granted, p => { p with resolves := fun _ ↦ granted }
  | _, p => p

/-- What a step grants is granted from any moment on. -/
theorem Step.regrant_since (s : Step) (p : Policy) (start : Nat) :
    s.regrant (p.since start) = (s.regrant p).since start := by
  cases s <;> rfl

/-- A host that grants what a step makes of what it granted. -/
def Host.regrant (base : Host Note) (s : Step) : Host Note :=
  { base with policy := s.regrant base.policy }

namespace Host

/-- The sockets and timers that there are. -/
def offset (h : Host Note) : Offset := ⟨h.sockets.length, h.timers⟩

/-- What happened on a host, on another one that was in use before. -/
def above (h base : Host Note) : Host Note where
  policy := base.policy
  sockets := base.sockets ++ h.sockets
  timers := base.timers + h.timers
  log := h.log.map (LogEntry.shift base.offset) ++ base.log

/-- Whether a host grants what a host in use grants from now on. -/
def Follows (h base : Host Note) : Prop := h.policy = base.policy.since base.moment

variable {h base : Host Note}

private theorem moment_above : (h.above base).moment = h.moment + base.moment := by
  simp only [moment, above, List.countP_append, List.countP_map, Function.comp_def,
    LogEntry.isClosing_shift]

private theorem getElem?_above (k : Nat) :
    (h.above base).sockets[base.offset.sockets + k]? = h.sockets[k]? := by
  rw [above, offset, List.getElem?_append_right (Nat.le_add_right _ _), Nat.add_sub_cancel_left]

/-- Above a host, a socket is in the phase that it is in without it. -/
theorem phaseOf_above (k : Nat) :
    (h.above base).phaseOf (base.offset.sockets + k) = h.phaseOf k := by
  rw [phaseOf, getElem?_above, phaseOf]

/-- Above a host, phases are set alike. -/
theorem setPhase_above (k : Nat) (p : Channel.Phase) :
    (h.above base).setPhase (base.offset.sockets + k) p = (h.setPhase k p).above base := by
  have hsockets : ((h.above base).setPhase (base.offset.sockets + k) p).sockets =
      ((h.setPhase k p).above base).sockets := by
    apply List.ext_getElem?
    intro j
    simp only [setPhase, above, offset, List.getElem?_modify]
    by_cases hj : j < base.sockets.length
    · have hne : ¬ base.sockets.length + k = j := by omega
      simp [List.getElem?_append_left hj, hne]
    · have hle := Nat.le_of_not_lt hj
      have hiff : base.sockets.length + k = j ↔ k = j - base.sockets.length := by omega
      simp only [List.getElem?_append_right hle, List.getElem?_modify, hiff]
  exact congrArg (fun sockets ↦ ({ h.above base with sockets } : Host Note)) hsockets

private theorem makeSocket_above (role : Role) : (h.above base).makeSocket role =
    (base.offset.sockets + (h.makeSocket role).1, (h.makeSocket role).2.above base) := by
  simp [makeSocket, above, offset]

private theorem canDial_above (hfollows : h.Follows base) (k : Nat) :
    (h.above base).canDial (base.offset.sockets + k) = h.canDial k := by
  rw [canDial, getElem?_above, canDial, hfollows, moment_above]
  rfl

private theorem canSend_above (hfollows : h.Follows base) (k : Nat) :
    (h.above base).canSend (base.offset.sockets + k) = h.canSend k := by
  rw [canSend, getElem?_above, canSend, hfollows, moment_above]
  rfl

/-- Above a host, the same lookups are granted. -/
theorem resolves_above (hfollows : h.Follows base) :
    (h.above base).policy.resolves (h.above base).moment = h.policy.resolves h.moment := by
  rw [hfollows, moment_above]
  rfl

/-- Above a host, connecting comes to the same. -/
theorem connect_above (hfollows : h.Follows base) (k : Nat) (address : Address) :
    (h.above base).connect (base.offset.sockets + k) address =
      ((h.connect k address).1, (h.connect k address).2.above base) := by
  rw [connect, canDial_above hfollows, connect]
  split
  · rw [setPhase_above]
    rfl
  · rfl

private theorem send_above (hfollows : h.Follows base) (k : Nat) (bytes : Bytes) :
    (h.above base).send (base.offset.sockets + k) bytes =
      ((h.send k bytes).1, (h.send k bytes).2.above base) := by
  rw [send, canSend_above hfollows, send]
  split <;> rfl

private theorem close_above (k : Nat) :
    (h.above base).close (base.offset.sockets + k) = (h.close k).above base := by
  rw [close, setPhase_above]
  rfl

/-- A host that retains everything still grants what it granted. -/
theorem Follows.of_retains {h' : Host Note} (hfollows : h.Follows base) (hretains : h.Retains h') :
    h'.Follows base := hretains.policy.trans hfollows

end Host

/-! ### Links -/

variable {h base : Host Note}

/-- Above a host, starting an exchange comes to the same. -/
theorem CommandLink.start_above (l : CommandLink) (hfollows : h.Follows base) (what : Exchange)
    (bytes : Bytes) (address : Address) :
    (l.shift base.offset).start what bytes address (h.above base) =
      ((l.start what bytes address h).1, (l.start what bytes address h).2.1.shift base.offset,
        (l.start what bytes address h).2.2.above base) := by
  have hconnect := Host.connect_above hfollows l.socket address
  have hsame : (l.shift base.offset).isBusy = l.isBusy := rfl
  rw [start, hsame, start]
  split
  · rfl
  · rcases hdial : h.connect l.socket address with ⟨_ | _, after⟩ <;> rw [hdial] at hconnect <;>
      simp only [shift, hconnect, hdial]

/-- Above a host, flushing comes to the same. -/
theorem CommandLink.flush_above (l : CommandLink) (hfollows : h.Follows base) :
    (l.shift base.offset).flush (h.above base) =
      ((l.flush h).1, (l.flush h).2.1.shift base.offset, (l.flush h).2.2.above base) := by
  have hsame : (l.shift base.offset).pending = l.pending := rfl
  rw [flush, hsame, flush]
  split
  · rfl
  · next bytes _ =>
    have hsend := Host.send_above hfollows l.socket bytes
    rcases hwrite : h.send l.socket bytes with ⟨_ | _, after⟩ <;> rw [hwrite] at hsend <;>
      simp only [shift, hsend]

/-- Above a host, receiving comes to the same. -/
theorem CommandLink.receive_above (l : CommandLink) (bytes : Bytes) :
    (l.shift base.offset).receive bytes (h.above base) =
      ((l.receive bytes h).1, (l.receive bytes h).2.1.shift base.offset,
        (l.receive bytes h).2.2.above base) := by
  have hsame : (l.shift base.offset).framer = l.framer := rfl
  rw [receive, hsame, receive]
  split
  · rfl
  · rfl
  · simp only [shift, Host.close_above]

/-- Above a host, issuing a wait comes to the same. -/
theorem NotifyLink.issueWait_above (l : NotifyLink) (hfollows : h.Follows base) (id : Int) :
    (l.shift base.offset).issueWait id (h.above base) =
      ((l.issueWait id h).1, (l.issueWait id h).2.1.shift base.offset,
        (l.issueWait id h).2.2.above base) := by
  rw [issueWait, issueWait]
  split
  · rfl
  · next request _ => simp only [shift, Host.send_above hfollows]

/-- Above a host, rearming comes to the same. -/
theorem NotifyLink.rearm_above (l : NotifyLink) (hfollows : h.Follows base) (id : Int)
    (address : Address) :
    (l.shift base.offset).rearm id address (h.above base) =
      ((l.rearm id address h).1, (l.rearm id address h).2.1.shift base.offset,
        (l.rearm id address h).2.2.above base) := by
  have hclosed : (h.above base).isClosed (l.shift base.offset).socket = h.isClosed l.socket := by
    rw [Host.isClosed, Host.isClosed, shift, Host.phaseOf_above]
  rw [rearm, hclosed, rearm]
  split
  · simp only [shift, Host.connect_above hfollows]
  · exact l.issueWait_above hfollows id

/-- Above a host, receiving comes to the same. -/
theorem NotifyLink.receive_above (l : NotifyLink) (bytes : Bytes) :
    (l.shift base.offset).receive bytes (h.above base) =
      ((l.receive bytes h).1, (l.receive bytes h).2.1, (l.receive bytes h).2.2.1.shift base.offset,
        (l.receive bytes h).2.2.2.above base) := by
  have hsame : (l.shift base.offset).framer = l.framer := rfl
  simp only [receive, hsame]
  split
  · simp only [shift, Host.close_above]
  · rfl

/-! ### Machines -/

namespace Machine

/-- What happened to a session, on a host that was in use before. -/
def above (m : Machine) (base : Host Note) : Machine :=
  { m with session := m.session.shift base.offset, host := m.host.above base }

variable (m : Machine)

/-- Above a host, a retry is given up alike. -/
theorem cancelRetry_above : (m.above base).cancelRetry = m.cancelRetry.above base := by
  have hshift : (m.above base).session.retry.live =
      m.session.retry.live.map (base.offset.timers + ·) := rfl
  rw [cancelRetry, hshift, cancelRetry]
  cases m.session.retry.live <;> rfl

/-- Above a host, a lookup is given up alike. -/
theorem cancelLookup_above : (m.above base).cancelLookup = m.cancelLookup.above base := by
  have hsame : (m.above base).session.resolver = m.session.resolver := rfl
  rw [cancelLookup, hsame, cancelLookup]
  split <;> rfl

private theorem closeCommand_above : (m.above base).closeCommand = m.closeCommand.above base := by
  rw [closeCommand, closeCommand]
  cases hc : m.session.command with
  | none => simp [above, Session.shift, hc]
  | some c =>
    simp [above, Session.shift, hc, CommandLink.close, CommandLink.shift, CommandLink.abort,
      Host.close_above]

/-- Above a host, the notify link is closed alike. -/
theorem closeNotify_above : (m.above base).closeNotify = m.closeNotify.above base := by
  rw [closeNotify, closeNotify]
  cases hn : m.session.notify with
  | none => simp [above, Session.shift, hn]
  | some n =>
    simp [above, Session.shift, hn, NotifyLink.close, NotifyLink.shift, NotifyLink.abort,
      Host.close_above]

/-- Above a host, a machine is torn down alike. -/
theorem reset_above : (m.above base).reset = m.reset.above base := by
  simp only [reset, cancelRetry_above, cancelLookup_above, closeCommand_above, closeNotify_above]
  rfl

/-- Above a host, links are opened alike. -/
theorem openLinks_above : (m.above base).openLinks = m.openLinks.above base := by
  simp only [openLinks, closeCommand_above, closeNotify_above]
  simp only [above, Host.makeSocket_above]
  rfl

end Machine

end Rendezvous
