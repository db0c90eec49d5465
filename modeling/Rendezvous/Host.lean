import Rendezvous.Address
import Rendezvous.Channel

/-!
# The host of a session

What a session finds around it: sockets to dial and write to, a resolver to ask, a clock to set
timers on. The host only records what was asked of it, in one log in which the owner may leave
notes of its own. Nothing that is asked has an answer before the asking call is over; answers
come back later, as events. A policy says which requests are turned down at once; it may change
its mind from one line of the log to the next, unless all that was done is that sockets were closed.
-/

namespace Rendezvous

/-- What a session asks of its surroundings. Sockets and timers go by number, in the order in
which they were made. -/
inductive Action where
  | connect (socket : Nat) (address : Address)
  | send (socket : Nat) (bytes : Bytes)
  | close (socket : Nat)
  | lookup (host : String) (port : Int)
  | cancelLookup
  | schedule (timer : Nat) (delay : Float)
  | cancelTimer (timer : Nat)

/-- A line of a log: something asked, or a note of the owner. -/
inductive LogEntry (ν : Type) where
  | action (a : Action)
  | note (n : ν)

/-- Whether a line says that a socket was closed. -/
def LogEntry.isClosing {ν : Type} : LogEntry ν → Bool
  | .action (.close _) => true
  | _ => false

/-- When something is asked of a socket: the role it was made for, and the moment of the host. -/
structure Occasion where
  role : Role
  moment : Nat

/-- Which requests are granted. -/
structure Policy where
  /-- Whether sockets of a role accept to be dialled. -/
  accepts : Occasion → Bool := fun _ => true
  /-- Whether connected sockets of a role take bytes. -/
  sends : Occasion → Bool := fun _ => true
  /-- Whether hosts can be looked up at a moment of the host. -/
  resolves : Nat → Bool := fun _ => true

/-- A socket with the role it was made for. -/
structure Socket where
  role : Role
  phase : Channel.Phase := .closed
  deriving DecidableEq, Repr

/-- The sockets made so far, the number of timers set so far, and the log, newest line first. -/
structure Host (ν : Type) where
  policy : Policy := {}
  sockets : List Socket := []
  timers : Nat := 0
  log : List (LogEntry ν) := []

namespace Host

variable {ν : Type}

/-- Adds a line to the log. -/
def write (h : Host ν) (e : LogEntry ν) : Host ν := { h with log := e :: h.log }

/-- Adds a request to the log. -/
def ask (h : Host ν) (a : Action) : Host ν := h.write (.action a)

/-- How many lines the log has, closings apart. -/
def moment (h : Host ν) : Nat := h.log.countP fun l => !l.isClosing

/-- The phase of a socket. A number without a socket counts as closed. -/
def phaseOf (h : Host ν) (socket : Nat) : Channel.Phase :=
  (h.sockets[socket]?).elim .closed Socket.phase

/-- Whether a socket is closed. -/
def isClosed (h : Host ν) (socket : Nat) : Bool := h.phaseOf socket = .closed

/-- Puts a socket into a phase. -/
def setPhase (h : Host ν) (socket : Nat) (p : Channel.Phase) : Host ν :=
  { h with sockets := h.sockets.modify socket fun s => { s with phase := p } }

/-- Makes a socket, and gives its number. -/
def makeSocket (h : Host ν) (role : Role) : Nat × Host ν :=
  (h.sockets.length, { h with sockets := h.sockets ++ [{ role }] })

/-- Whether a socket would be dialled if it were asked now. -/
def canDial (h : Host ν) (socket : Nat) : Bool :=
  (h.sockets[socket]?).any fun s => s.phase.canDial (h.policy.accepts ⟨s.role, h.moment⟩)

/-- Whether a socket would take bytes if it were asked now. -/
def canSend (h : Host ν) (socket : Nat) : Bool :=
  (h.sockets[socket]?).any fun s => s.phase.canSend (h.policy.sends ⟨s.role, h.moment⟩)

/-- Starts to connect a socket. -/
def connect (h : Host ν) (socket : Nat) (address : Address) : Bool × Host ν :=
  if h.canDial socket then (true, (h.setPhase socket .connecting).ask (.connect socket address))
  else (false, h)

/-- Writes bytes to a socket. -/
def send (h : Host ν) (socket : Nat) (bytes : Bytes) : Bool × Host ν :=
  if h.canSend socket then (true, h.ask (.send socket bytes)) else (false, h)

/-- Closes a socket; it tells its owner nothing of it. -/
def close (h : Host ν) (socket : Nat) : Host ν :=
  (h.setPhase socket .closed).ask (.close socket)

/-- Sets a timer, and gives its number. -/
def schedule (h : Host ν) (delay : Float) : Nat × Host ν :=
  (h.timers, { h with timers := h.timers + 1 }.ask (.schedule h.timers delay))

/-- A socket that was made is in the phase that was set. -/
theorem phaseOf_setPhase {h : Host ν} {socket : Nat} (made : socket < h.sockets.length)
    (p : Channel.Phase) : (h.setPhase socket p).phaseOf socket = p := by
  simp [phaseOf, setPhase, made]

/-- Every other socket stays in its phase. -/
theorem phaseOf_setPhase_of_ne (h : Host ν) {socket other : Nat} (hne : socket ≠ other)
    (p : Channel.Phase) : (h.setPhase socket p).phaseOf other = h.phaseOf other := by
  simp [phaseOf, setPhase, hne]

/-- The requests of a log in the order in which they were made. -/
def actions (log : List (LogEntry ν)) : List Action :=
  log.reverse.filterMap fun
    | .action a => some a
    | .note _ => none

/-- The notes of a log in the order in which they were left. -/
def notes (log : List (LogEntry ν)) : List ν :=
  log.reverse.filterMap fun
    | .action _ => none
    | .note n => some n

/-- The newest request comes last. -/
@[simp] theorem actions_cons_action (a : Action) (log : List (LogEntry ν)) :
    actions (.action a :: log) = actions log ++ [a] := by
  simp [actions]

/-- A note is no request. -/
@[simp] theorem actions_cons_note (n : ν) (log : List (LogEntry ν)) :
    actions (.note n :: log) = actions log := by
  simp [actions]

/-- The newest note comes last. -/
@[simp] theorem notes_cons_note (n : ν) (log : List (LogEntry ν)) :
    notes (.note n :: log) = notes log ++ [n] := by
  simp [notes]

/-- A request is no note. -/
@[simp] theorem notes_cons_action (a : Action) (log : List (LogEntry ν)) :
    notes (.action a :: log) = notes log := by
  simp [notes]

end Host

end Rendezvous
