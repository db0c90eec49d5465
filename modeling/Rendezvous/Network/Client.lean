import Rendezvous.Network.Basic
import Rendezvous.Session.Step

/-!
# A session on a network

A session whose sockets, lookups and timers are those of a network. After each step the network
takes what the session asked for, and starts what is to start.
-/

namespace Rendezvous.Network

/-- A session and the network it is on. -/
structure Client where
  machine : Machine
  network : Network := {}

namespace Client

/-- Something that happens to a session on a network. -/
inductive Step where
  | call (c : Call)
  | fire (timer : Nat)
  | network (e : Event)
  deriving DecidableEq, Repr

/-- What comes back from a step. -/
inductive Reply where
  | session (r : Rendezvous.Reply)
  | network (o : Outcome)
  deriving DecidableEq, Repr

/-- A session that has done nothing yet. Without a network at hand nothing can be started. -/
def fresh (config : Config) (online : Bool) : Client where
  machine := .fresh config true { accepts := fun _ => online, resolves := fun _ => online }

/-- The session takes a step, and the network what is asked for in it. -/
def advance (c : Client) (o : Observer) (depth : Nat) (s : Rendezvous.Step) :
    Rendezvous.Reply × List Signal × Client :=
  let (reply, machine) := c.machine.step o depth s
  let (seen, network) := c.network.absorb (Host.actions (c.machine.newLines machine))
  (reply, seen, { machine, network })

/-- The step of the session that a delivery is. -/
def stepOf : Delivery → Rendezvous.Step
  | .socket socket event => .socket (.number socket) event
  | .answer _ answer => .answer answer.ip?

/-- Whether the event itself runs the session, so that a fault of the session comes back from it.
The other events only wake a task, which keeps the fault to itself. -/
def isDirect : Event → Bool
  | .up _ => true
  | .data _ _ => true
  | .lost _ _ => true
  | _ => false

/-- The reply to an event that was delivered. -/
def replyTo (e : Event) (outcome : Outcome) : Rendezvous.Reply → Reply
  | .fault f => if isDirect e then .session (.fault f) else .network outcome
  | _ => .network outcome

/-- One step, with its reply and what is seen. -/
def step (o : Observer) (depth : Nat) (c : Client) : Step → Reply × List Signal × Client
  | .call call =>
    let (reply, seen, c) := c.advance o depth (.call call)
    (.session reply, seen, c)
  | .fire timer =>
    let (reply, seen, c) := c.advance o depth (.fire timer)
    (.session reply, seen, c)
  | .network e =>
    let (effect, network) := c.network.receive e
    let c := { c with network }
    match effect.delivery with
    | none => (.network effect.outcome, effect.seen, c)
    | some delivery =>
      let (reply, seen, c) := c.advance o depth (stepOf delivery)
      (replyTo e effect.outcome reply, effect.seen ++ seen, c)

end Client

end Rendezvous.Network
