import Rendezvous.Network.Basic
import Rendezvous.Text.Quoted

/-!
# A channel on a network

One channel by itself. Its owner may make calls at any time, and at once when it is told of an
event; what it does then is given with each step, so that an owner may do anything. The channel
tells of the current connection only: a connection that it has given up, or that it has not asked
for, is never heard of.
-/

namespace Rendezvous.Network

/-- What the owner of a channel may ask of it. -/
inductive ChannelCall where
  | connect (address : Address)
  | send (bytes : Bytes)
  | close
  deriving DecidableEq, Repr

/-- The answer to a call. -/
inductive ChannelAnswer where
  | accepted (yes : Bool)
  /-- The number of bytes that were taken; none means that the channel is not connected. -/
  | sent (size : Option Nat)
  | closed
  deriving DecidableEq, Repr

/-- What the owner of a channel has seen: an event, or the answer to a call that it made when it
was told of one. -/
inductive LineEntry where
  | heard (e : Channel.Event)
  | called (c : ChannelCall) (a : ChannelAnswer)
  deriving DecidableEq, Repr

/-- A channel on a network. Without an owner its events are not heard; without a network at hand
it cannot be dialled. -/
structure Line where
  name : String
  owned : Bool := true
  online : Bool := true
  phase : Channel.Phase := .closed
  network : Network := {}
  deriving DecidableEq, Repr

/-- What an owner does when it is told of an event. -/
abbrev Line.Owner := Channel.Event → List ChannelCall

namespace Line

/-- How a channel is shown. -/
def describe (l : Line) : String :=
  "Channel(" ++ String.ofList (Text.Quoted.text l.name.toList) ++ ", " ++ l.phase.name ++ ")"

/-- Asks something of the network for the channel. -/
def ask (l : Line) (a : Action) : List Signal × Line :=
  let (seen, network) := l.network.take a
  (seen, { l with network })

/-- Carries out a call. -/
def call (l : Line) : ChannelCall → ChannelAnswer × List Signal × Line
  | .connect address =>
    if l.phase.canDial l.online then
      (.accepted true, { l with phase := .connecting }.ask (.connect 0 address))
    else (.accepted false, [], l)
  | .send bytes =>
    if l.phase.canSend true then (.sent (some bytes.length), l.ask (.send 0 bytes))
    else (.sent none, [], l)
  | .close => (.closed, { l with phase := .closed }.ask (.close 0))

/-- Carries out calls in order. -/
def callAll (l : Line) : List ChannelCall → List LineEntry × List Signal × Line
  | [] => ([], [], l)
  | c :: rest =>
    let (answer, seen, l) := l.call c
    let (entries, others, l) := l.callAll rest
    (.called c answer :: entries, seen ++ others, l)

/-- The channel has an event. -/
def hear (l : Line) (owner : Owner) (e : Channel.Event) : List LineEntry × List Signal × Line :=
  let l := { l with phase := l.phase.after e }
  if l.owned then
    let (entries, seen, l) := l.callAll (owner e)
    (.heard e :: entries, seen, l)
  else ([], [], l)

/-- Starts what is to start. -/
def settle (l : Line) : List Signal × Line :=
  let (seen, network) := l.network.settle
  (seen, { l with network })

/-- Something that happens to a channel. -/
inductive Step where
  | call (c : ChannelCall)
  | network (e : Event)
  deriving DecidableEq, Repr

/-- What comes back from a step. -/
inductive Reply where
  | call (a : ChannelAnswer)
  | network (o : Outcome)
  deriving DecidableEq, Repr

/-- What a step brings about. -/
structure Result where
  reply : Reply
  entries : List LineEntry
  seen : List Signal

/-- One step. -/
def step (owner : Owner) (l : Line) : Step → Result × Line
  | .call c =>
    let (answer, seen, l) := l.call c
    let (started, l) := l.settle
    (⟨.call answer, [], seen ++ started⟩, l)
  | .network e =>
    let (effect, network) := l.network.receive e
    let l := { l with network }
    match effect.delivery with
    | some (.socket _ event) =>
      let (entries, seen, l) := l.hear owner event
      let (started, l) := l.settle
      (⟨.network effect.outcome, entries, effect.seen ++ seen ++ started⟩, l)
    | _ => (⟨.network effect.outcome, [], effect.seen⟩, l)

end Line

end Rendezvous.Network
