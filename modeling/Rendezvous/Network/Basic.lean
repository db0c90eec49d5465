import Rendezvous.Host

/-!
# A network

What becomes of the requests of a client. Dialling a socket starts an attempt, and looking up a
host starts a lookup, once the call that asked for it is over; both are numbered in the order in
which they start. An attempt whose socket is closed is abandoned: before it starts, it never
does; while it is pending, its connection is hung up as soon as it is made; once connected, the
connection is hung up at once. Nothing that happens to an abandoned attempt reaches a socket.
-/

namespace Rendezvous.Network

/-- The kind of address that lookups ask for. -/
inductive Family where
  | inet
  | inet6
  deriving DecidableEq, Repr

/-- The label of a family. -/
def Family.name : Family → String
  | .inet => "inet"
  | .inet6 => "inet6"

/-- How far an attempt at a connection has come. -/
inductive Stage where
  | pending
  | up
  | over
  deriving DecidableEq, Repr

/-- An attempt that was started for a socket, and whether the socket has given it up. -/
structure Attempt where
  socket : Nat
  stage : Stage := .pending
  abandoned : Bool := false
  deriving DecidableEq, Repr

/-- Something that starts when the current call is over. -/
inductive Request where
  | dial (socket : Nat) (address : Address)
  | lookup (host : String) (port : Int)
  deriving DecidableEq, Repr

/-- A lookup that was started, and whether its answer is still wanted. -/
structure Lookup where
  host : String
  pending : Bool := true
  deriving DecidableEq, Repr

/-- What can be seen from outside. -/
inductive Signal where
  | connect (attempt : Nat) (address : Address)
  | write (attempt : Nat) (bytes : Bytes)
  | hangUp (attempt : Nat)
  | lookup (lookup : Nat) (host : String) (port : Int) (family : Family)
  | timer (timer : Nat) (delay : Float)
  | timerCancelled (timer : Nat)

/-- Something that happens on the network. -/
inductive Event where
  /-- An attempt gets its connection. -/
  | up (attempt : Nat)
  /-- An attempt fails. -/
  | fail (attempt : Nat) (ending : Channel.Ending)
  /-- Bytes arrive on a connection. -/
  | data (attempt : Nat) (bytes : Bytes)
  /-- A connection comes to its end. -/
  | lost (attempt : Nat) (ending : Channel.Ending)
  /-- A lookup gives addresses. -/
  | resolved (lookup : Nat) (addresses : List String)
  /-- A lookup fails, by an error of the operating system or another one. -/
  | lookupFailed (lookup : Nat) (foreign : Bool)
  deriving DecidableEq, Repr

/-- What came of an event: it took its course, there was nothing left for it to happen to, or
there is no such attempt or lookup. -/
inductive Outcome where
  | done
  | ignored
  | absent
  deriving DecidableEq, Repr

/-- The answer to a lookup: an address, or what is said of the failure. -/
inductive Answer where
  | address (ip : String)
  | failure (text : String)
  deriving DecidableEq, Repr

/-- The address of an answer. -/
def Answer.ip? : Answer → Option String
  | .address ip => some ip
  | .failure _ => none

/-- What an event brings to the client. -/
inductive Delivery where
  | socket (socket : Nat) (event : Channel.Event)
  | answer (host : String) (answer : Answer)
  deriving DecidableEq, Repr

end Network

/-- The attempts and lookups started so far, and those about to start. -/
structure Network where
  family : Network.Family := .inet
  attempts : List Network.Attempt := []
  lookups : List Network.Lookup := []
  queue : List Network.Request := []
  deriving DecidableEq, Repr

namespace Network

/-- The number of the attempt whose connection a socket is on. -/
def current? (n : Network) (socket : Nat) : Option Nat :=
  n.attempts.findIdx? fun a => a.socket = socket && a.stage = .up && !a.abandoned

/-- Gives up what was asked for a socket and has not started. -/
def withdraw (n : Network) (socket : Nat) : Network :=
  { n with queue := n.queue.filter fun
      | .dial s _ => s ≠ socket
      | .lookup _ _ => true }

/-- Gives up the attempts of a socket. -/
def abandon (n : Network) (socket : Nat) : Network :=
  { n with attempts := n.attempts.map fun a =>
      if a.socket = socket then { a with abandoned := true } else a }

/-- Gives up the lookups. -/
def forget (n : Network) : Network :=
  { n with
    lookups := n.lookups.map ({ · with pending := false })
    queue := n.queue.filter fun
      | .dial _ _ => true
      | .lookup _ _ => false }

/-- Takes a request of the client. -/
def take (n : Network) : Action → List Signal × Network
  | .connect socket address => ([], { n with queue := n.queue ++ [.dial socket address] })
  | .send socket bytes => (((n.current? socket).map fun a => .write a bytes).toList, n)
  | .close socket =>
    (((n.current? socket).map Signal.hangUp).toList, (n.withdraw socket).abandon socket)
  | .lookup host port => ([], { n with queue := n.queue ++ [.lookup host port] })
  | .cancelLookup => ([], n.forget)
  | .schedule timer delay => ([.timer timer delay], n)
  | .cancelTimer timer => ([.timerCancelled timer], n)

/-- Takes requests in order. -/
def takeAll (n : Network) : List Action → List Signal × Network
  | [] => ([], n)
  | a :: rest =>
    let (first, n) := n.take a
    let (others, n) := n.takeAll rest
    (first ++ others, n)

/-- Starts one thing. -/
def start (n : Network) : Request → Signal × Network
  | .dial socket address =>
    (.connect n.attempts.length address, { n with attempts := n.attempts ++ [{ socket }] })
  | .lookup host port =>
    (.lookup n.lookups.length host port n.family, { n with lookups := n.lookups ++ [{ host }] })

/-- Starts things in order. -/
def startAll (n : Network) : List Request → List Signal × Network
  | [] => ([], n)
  | r :: rest =>
    let (first, n) := n.start r
    let (others, n) := n.startAll rest
    (first :: others, n)

/-- Starts everything that is about to start. -/
def settle (n : Network) : List Signal × Network := { n with queue := [] }.startAll n.queue

/-- Takes the requests of a call and starts what they ask for. -/
def absorb (n : Network) (actions : List Action) : List Signal × Network :=
  let (taken, n) := n.takeAll actions
  let (started, n) := n.settle
  (taken ++ started, n)

/-- Brings an attempt to a stage. -/
def setStage (n : Network) (attempt : Nat) (stage : Stage) : Network :=
  { n with attempts := n.attempts.modify attempt ({ · with stage }) }

/-- Brings a lookup to its end. -/
def finish (n : Network) (lookup : Nat) : Network :=
  { n with lookups := n.lookups.modify lookup ({ · with pending := false }) }

/-- What an event brings about: what came of it, what is seen, and what the client gets. -/
structure Effect where
  outcome : Outcome
  seen : List Signal := []
  delivery : Option Delivery := none

/-- Nothing comes of an event. -/
def Effect.ignored : Effect := ⟨.ignored, [], none⟩

/-- An event of an attempt that was started. -/
def attemptEvent (n : Network) (number : Nat) (a : Attempt) : Event → Effect × Network
  | .up _ =>
    if a.stage ≠ .pending then (.ignored, n)
    else if a.abandoned then (⟨.done, [.hangUp number], none⟩, n.setStage number .up)
    else (⟨.done, [], some (.socket a.socket .connected)⟩, n.setStage number .up)
  | .fail _ ending =>
    if a.stage ≠ .pending || a.abandoned then (.ignored, n)
    else if ending = .foreign then (⟨.done, [], none⟩, n.setStage number .over)
    else (⟨.done, [], some (.socket a.socket (.closed ending.code))⟩, n.setStage number .over)
  | .data _ bytes =>
    if a.stage ≠ .up then (.ignored, n)
    else if a.abandoned then (⟨.done, [], none⟩, n)
    else (⟨.done, [], some (.socket a.socket (.received bytes))⟩, n)
  | .lost _ ending =>
    if a.stage ≠ .up then (.ignored, n)
    else if a.abandoned then (⟨.done, [], none⟩, n.setStage number .over)
    else (⟨.done, [], some (.socket a.socket (.closed ending.code))⟩, n.setStage number .over)
  | _ => (.ignored, n)

/-- What a lookup without addresses is said to have come to. -/
def noAddresses (host : String) : String := "No addresses for " ++ host

/-- What a lookup that failed is said to have come to. -/
def lookupFailure : String := "lookup failed"

/-- An event of a lookup that was started. -/
def lookupEvent (n : Network) (number : Nat) (l : Lookup) : Event → Effect × Network
  | .resolved _ addresses =>
    if !l.pending then (.ignored, n)
    else
      let answer := match addresses with
        | [] => .failure (noAddresses l.host)
        | ip :: _ => .address ip
      (⟨.done, [], some (.answer l.host answer)⟩, n.finish number)
  | .lookupFailed _ foreign =>
    if !l.pending then (.ignored, n)
    else if foreign then (⟨.done, [], none⟩, n.finish number)
    else (⟨.done, [], some (.answer l.host (.failure lookupFailure))⟩, n.finish number)
  | _ => (.ignored, n)

/-- The attempt or lookup that an event happens to, if it was started. -/
def receive (n : Network) (e : Event) : Effect × Network :=
  let onAttempt (number : Nat) := match n.attempts[number]? with
    | none => (⟨.absent, [], none⟩, n)
    | some a => n.attemptEvent number a e
  let onLookup (number : Nat) := match n.lookups[number]? with
    | none => (⟨.absent, [], none⟩, n)
    | some l => n.lookupEvent number l e
  match e with
  | .up number => onAttempt number
  | .fail number _ => onAttempt number
  | .data number _ => onAttempt number
  | .lost number _ => onAttempt number
  | .resolved number _ => onLookup number
  | .lookupFailed number _ => onLookup number

end Network

end Rendezvous
