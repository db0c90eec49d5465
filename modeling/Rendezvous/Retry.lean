/-!
# The retry timer

A one-shot timer with at most one arming live. Each arming has a handle of the clock; a firing
counts only if its handle is that of the live arming, so one that was cancelled or already fired
does nothing. The timer is disarmed before its callback runs, so that the callback can arm it
again.

A desk runs such a timer against a clock whose handles may fire at any time, in any order and any
number of times, with callbacks that arm and cancel the timer themselves.
-/

namespace Rendezvous

/-- A delay, and the handle of the live arming. -/
structure RetryTimer where
  delay : Float
  live : Option Nat := none

namespace RetryTimer

/-- Whether an arming is live. -/
def isArmed (t : RetryTimer) : Bool := t.live.isSome

/-- The timer armed with a fresh handle, unless it is armed already. -/
def arm? (t : RetryTimer) (handle : Nat) : Option RetryTimer :=
  if t.isArmed then none else some { t with live := some handle }

/-- The timer after a firing that counts. -/
def fire? (t : RetryTimer) (handle : Nat) : Option RetryTimer :=
  if t.live = some handle then some { t with live := none } else none

/-- The timer without its arming. -/
def cancel (t : RetryTimer) : RetryTimer := { t with live := none }

/-- A firing counts just when its handle is live, and leaves the timer as cancelling does. -/
theorem fire?_eq_some_iff {t after : RetryTimer} {handle : Nat} :
    t.fire? handle = some after ↔ t.live = some handle ∧ after = t.cancel := by
  rw [fire?]
  split
  · next h => simp [h, cancel, eq_comm]
  · next h => simp [h]

/-- What a callback does: it arms the timer with a labelled callback, or cancels it. -/
inductive Plan where
  | done
  | arm (label : String) (callback : Plan) (next : Plan)
  | cancel (next : Plan)
  deriving DecidableEq, Repr

/-- What happens at a desk, in the order in which it happens. -/
inductive DeskEntry where
  /-- A timer was set. -/
  | scheduled (handle : Nat) (delay : Float)
  /-- A timer was taken back. -/
  | cancelled (handle : Nat)
  /-- The callback of a label ran. -/
  | fired (label : String)
  /-- A callback armed the timer, or was refused. -/
  | chained (accepted : Bool)

/-- A timer, the callback behind every handle that was given out, and what happened, newest
first. -/
structure Desk where
  timer : RetryTimer
  handles : List (String × Plan) := []
  log : List DeskEntry := []

namespace Desk

/-- Arms the timer; refused while an arming is live. -/
def arm (d : Desk) (label : String) (callback : Plan) : Bool × Desk :=
  match d.timer.arm? d.handles.length with
  | none => (false, d)
  | some timer =>
    (true, {
      timer
      handles := d.handles ++ [(label, callback)]
      log := .scheduled d.handles.length timer.delay :: d.log })

/-- Cancels the live arming. -/
def cancel (d : Desk) : Desk :=
  match d.timer.live with
  | none => d
  | some handle => { d with timer := d.timer.cancel, log := .cancelled handle :: d.log }

/-- Carries out what a callback does. -/
def follow (d : Desk) : Plan → Desk
  | .done => d
  | .arm label callback next =>
    let (accepted, d) := d.arm label callback
    { d with log := .chained accepted :: d.log }.follow next
  | .cancel next => d.cancel.follow next

/-- The clock fires a handle. The answer says whether the handle exists. -/
def fire (d : Desk) (handle : Nat) : Bool × Desk :=
  match d.handles[handle]? with
  | none => (false, d)
  | some (label, callback) =>
    match d.timer.fire? handle with
    | none => (true, d)
    | some timer => (true, { d with timer, log := .fired label :: d.log }.follow callback)

end Desk

end RetryTimer

end Rendezvous
