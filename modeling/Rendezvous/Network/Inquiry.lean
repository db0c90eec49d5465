import Rendezvous.Network.Basic
import Rendezvous.Resolver

/-!
# A resolver on a network

One resolver by itself. Its owner may start and give up lookups at any time, and at once when an
answer is handed over; what it does then is given with each step, so that an owner may do
anything. An answer that was given up for is never handed over.
-/

namespace Rendezvous.Network

/-- What the owner of a resolver may ask of it. -/
inductive InquiryCall where
  | start (host : String) (port : Int)
  | cancel
  deriving DecidableEq, Repr

/-- The answer to a call. -/
inductive InquiryAnswer where
  | accepted (yes : Bool)
  | cancelled
  deriving DecidableEq, Repr

/-- What the owner of a resolver has seen: an answer for a host, with whether the resolver was
busy when it came, or the answer to a call that it made then. -/
inductive InquiryEntry where
  | heard (host : String) (answer : Answer) (inFlight : Bool)
  | called (c : InquiryCall) (a : InquiryAnswer)
  deriving DecidableEq, Repr

/-- A resolver on a network. Without a network at hand nothing can be looked up. -/
structure Inquiry where
  online : Bool := true
  resolver : Resolver := {}
  network : Network := {}
  deriving DecidableEq, Repr

namespace Inquiry

/-- Carries out a call. -/
def call (q : Inquiry) : InquiryCall → InquiryAnswer × List Signal × Inquiry
  | .start host port =>
    match q.resolver.start? q.online with
    | none => (.accepted false, [], q)
    | some resolver =>
      let (seen, network) := q.network.take (.lookup host port)
      (.accepted true, seen, { q with resolver, network })
  | .cancel =>
    if q.resolver.inFlight then
      let (seen, network) := q.network.take .cancelLookup
      (.cancelled, seen, { q with resolver := .idle, network })
    else (.cancelled, [], q)

/-- Carries out calls in order. -/
def callAll (q : Inquiry) : List InquiryCall → List InquiryEntry × List Signal × Inquiry
  | [] => ([], [], q)
  | c :: rest =>
    let (answer, seen, q) := q.call c
    let (entries, others, q) := q.callAll rest
    (.called c answer :: entries, seen ++ others, q)

/-- An answer is handed over, and the owner makes calls at once. -/
def hear (q : Inquiry) (host : String) (answer : Answer) (calls : List InquiryCall) :
    List InquiryEntry × List Signal × Inquiry :=
  let q := { q with resolver := .idle }
  let (entries, seen, q') := q.callAll calls
  (.heard host answer q.resolver.inFlight :: entries, seen, q')

/-- Starts what is to start. -/
def settle (q : Inquiry) : List Signal × Inquiry :=
  let (seen, network) := q.network.settle
  (seen, { q with network })

/-- Something that happens to a resolver. -/
inductive Step where
  | call (c : InquiryCall)
  | network (e : Event)
  deriving DecidableEq, Repr

/-- What comes back from a step. -/
inductive Reply where
  | call (a : InquiryAnswer)
  | network (o : Outcome)
  deriving DecidableEq, Repr

/-- What a step brings about. -/
structure Result where
  reply : Reply
  entries : List InquiryEntry
  seen : List Signal

/-- One step, with the calls that the owner makes if an answer is handed over in it. -/
def step (calls : List InquiryCall) (q : Inquiry) : Step → Result × Inquiry
  | .call c =>
    let (answer, seen, q) := q.call c
    let (started, q) := q.settle
    (⟨.call answer, [], seen ++ started⟩, q)
  | .network e =>
    let (effect, network) := q.network.receive e
    let q := { q with network }
    match effect.delivery with
    | some (.answer host answer) =>
      let (entries, seen, q) := q.hear host answer calls
      let (started, q) := q.settle
      (⟨.network effect.outcome, entries, effect.seen ++ seen ++ started⟩, q)
    | _ => (⟨.network effect.outcome, [], effect.seen⟩, q)

end Inquiry

end Rendezvous.Network
