import Rendezvous.Bytes

/-!
# Channels

One socket of a client, reduced to what its owner can tell: whether it is closed, connecting or
connected. A channel is dialled only while it is closed, carries bytes only while it is
connected, and may be used again once it is closed. Its events are a connection, received bytes,
and a close with the number of the error that caused it.
-/

namespace Rendezvous

/-- The two sockets of a session: one for short exchanges, one for the long poll. -/
inductive Role where
  | command
  | notify
  deriving DecidableEq, Repr

namespace Channel

/-- The life of a channel. -/
inductive Phase where
  | closed
  | connecting
  | connected
  deriving DecidableEq, Repr

/-- What a channel tells its owner. -/
inductive Event where
  | connected
  | received (bytes : Bytes)
  | closed (code : Int)
  deriving DecidableEq, Repr

/-- The error number of a refused connection. -/
def refusedCode : Int := 111

/-- How a connection, or the attempt at one, comes to its end. -/
inductive Ending where
  /-- The other side closed it. -/
  | clean
  /-- Nobody listens at the address. -/
  | refused
  /-- An operating system error with its number. -/
  | system (number : Int)
  /-- An operating system error without a number. -/
  | unnumbered
  /-- An error that does not come from the operating system. -/
  | foreign
  deriving DecidableEq, Repr

/-- The number that a close event carries: zero for a clean close, and -1 where the error has no
number of its own. -/
def Ending.code : Ending → Int
  | .clean => 0
  | .refused => refusedCode
  | .system number => if number = 0 then -1 else number
  | .unnumbered => -1
  | .foreign => -1

namespace Phase

/-- The label of a phase. -/
def name : Phase → String
  | .closed => "closed"
  | .connecting => "connecting"
  | .connected => "connected"

/-- Whether a channel can be dialled, given that its surroundings accept the attempt. -/
def canDial (able : Bool) (p : Phase) : Bool := p = .closed && able

/-- Whether a channel takes bytes to send, given that its surroundings do. -/
def canSend (able : Bool) (p : Phase) : Bool := p = .connected && able

/-- The phase that an event finds a channel in. -/
def after (p : Phase) : Event → Phase
  | .connected => .connected
  | .received _ => p
  | .closed _ => .closed

/-- Which events a working network reports in a phase: a connection only of a channel that is
connecting, bytes only of a connected one, and a close of one that is not closed. -/
def Permits (p : Phase) : Event → Prop
  | .connected => p = .connecting
  | .received _ => p = .connected
  | .closed _ => p ≠ .closed

instance (p : Phase) (e : Event) : Decidable (p.Permits e) := by
  cases e <;> unfold Permits <;> infer_instance

end Phase

end Channel

end Rendezvous
