import Rendezvous.Session.Observer
import Rendezvous.Session.Transitions

/-!
# Steps of a session

Everything that can happen to a session from outside, one thing at a time: calls, answers to
lookups, timers, events of sockets whether in place or not, and changes of what the host grants.
A run is any sequence of steps.
-/

namespace Rendezvous

/-- A socket, by number or as the newest of its role. -/
inductive SocketRef where
  | number (n : Nat)
  | newest (role : Role)
  deriving DecidableEq, Repr

/-- Something that happens to a session. -/
inductive Step where
  | call (c : Call)
  /-- An observer is registered. -/
  | observe
  /-- The lookup in flight is answered. -/
  | answer (ip : Option String)
  /-- An answer comes to a lookup that is over or was given up. -/
  | lateAnswer (ip : Option String)
  /-- A timer fires. -/
  | fire (timer : Nat)
  /-- A socket has an event. -/
  | socket (ref : SocketRef) (event : Channel.Event)
  /-- Sockets of a role accept to be dialled from now on, or do not. -/
  | accept (role : Role) (granted : Bool)
  /-- Sockets of a role take bytes from now on, or do not. -/
  | sendable (role : Role) (granted : Bool)
  /-- Hosts can be looked up from now on, or cannot. -/
  | resolvable (granted : Bool)
  deriving DecidableEq, Repr

/-- What comes back from a step. -/
inductive Reply where
  /-- The answer of a call, if it has one. -/
  | answer (a : Option Bool)
  | done
  /-- There is no such lookup, timer or socket. -/
  | absent
  | fired
  | fault (f : Fault)
  deriving DecidableEq, Repr

namespace Machine

/-- The number of a socket that was made. -/
def find? (m : Machine) : SocketRef → Option Nat
  | .number n => if n < m.host.sockets.length then some n else none
  | .newest role =>
    (List.range m.host.sockets.length).reverse.find? fun n =>
      (m.host.sockets[n]?).any (·.role = role)

/-- Changes what the host grants. -/
def grant (m : Machine) (f : Policy → Policy) : Machine :=
  { m with host := { m.host with policy := f m.host.policy } }

/-- Runs a computation, and gives its reply with the machine as it leaves it. -/
def runWith (m : Machine) (x : SessionM Reply) : Reply × Machine :=
  match x m with
  | (.ok reply, m) => (reply, m)
  | (.error f, m) => (.fault f, m)

/-- What a step does, given how the observer is told of events. -/
def react (tell : Event → SessionM Unit) : Step → SessionM Reply
  | .call c => return .answer (← SessionM.perform tell c)
  | .observe => do
    if (← get).observed then
      throw .alreadyObserved
    modify ({ · with observed := true })
    return .answer none
  | .answer ip => do
    if (← get).session.resolver.inFlight then
      SessionM.onLookup tell ip
      return .done
    return .absent
  | .lateAnswer ip => do
    SessionM.onAnswer tell ip
    return .done
  | .fire timer => do
    if timer < (← get).host.timers then
      SessionM.onTimer tell timer
      return .fired
    return .absent
  | .socket ref event => do
    match (← get).find? ref with
    | none => return .absent
    | some socket =>
      SessionM.onSocket tell socket event
      return .done
  | .accept role granted => do
    modify (·.grant fun p =>
      { p with accepts := fun o => if o.role = role then granted else p.accepts o })
    return .answer none
  | .sendable role granted => do
    modify (·.grant fun p =>
      { p with sends := fun o => if o.role = role then granted else p.sends o })
    return .answer none
  | .resolvable granted => do
    modify (·.grant ({ · with resolves := fun _ => granted }))
    return .answer none

/-- One step under an observer, with events nested to a depth. -/
def step (o : Observer) (depth : Nat) (m : Machine) (s : Step) : Reply × Machine :=
  m.runWith (react (o.tell depth) s)

/-- The machine after a sequence of steps. -/
def run (o : Observer) (depth : Nat) (m : Machine) (steps : List Step) : Machine :=
  steps.foldl (fun m s => (m.step o depth s).2) m

/-- The lines that were added to the log since an earlier state, newest first. -/
def newLines (earlier later : Machine) : List (LogEntry Note) :=
  later.host.log.take (later.host.log.length - earlier.host.log.length)

end Machine

end Rendezvous
