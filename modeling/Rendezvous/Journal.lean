import Rendezvous.Session.Basic
import Rendezvous.Severity

/-!
# The journal

What a headless client writes down of a session: one record or two for each event, each with a
severity, and a copy of the peer list made from the events alone. Payloads appear by size only,
except at the lowest severity. Records below a threshold are left out when they are read.
-/

namespace Rendezvous

/-- One line of a journal. -/
structure Record where
  severity : Severity
  text : String
  deriving DecidableEq, Repr

/-- The peers by the events so far, and whether the session was signed in and came to an end. -/
structure Journal where
  peers : Peer.Roster := ∅
  signedIn : Bool := false
  ended : Bool := false

namespace Journal

/-- The journal after an event. -/
def after (j : Journal) : Event → Journal
  | .signedIn => { j with signedIn := true }
  | .disconnected => { j with ended := true, peers := ∅ }
  | .peerConnected id name => { j with peers := j.peers.insert id name }
  | .peerDisconnected id => { j with peers := j.peers.erase id }
  | .message _ _ => j
  | .messageSent _ => j
  | .connectionFailure => { j with ended := true }

/-- The records of an event, given the journal before it; none where a number in them has too
many digits to be written. -/
def records? (j : Journal) : Event → Option (List Record)
  | .signedIn => some [⟨.info, s!"Signed in, {j.peers.size} peer(s) online"⟩]
  | .disconnected => some [⟨.info, "Disconnected from server"⟩]
  | .peerConnected id name => do
    let id ← Numeral.integerText? id
    return [⟨.info, s!"Peer connected: {name} (id={id})"⟩]
  | .peerDisconnected id => do
    let name := j.peers.getD id "?"
    let id ← Numeral.integerText? id
    return [⟨.info, s!"Peer disconnected: {name} (id={id})"⟩]
  | .message id payload => do
    let id ← Numeral.integerText? id
    let literal := String.ofList (Text.Quoted.bytes payload)
    return [
      ⟨.info, s!"Message from peer {id}: {payload.length} bytes"⟩,
      ⟨.debug, s!"Payload from {id}: {literal}"⟩]
  | .messageSent status =>
    if status = 0 then some [⟨.debug, "Message delivered to server"⟩]
    else do
      let status ← Numeral.integerText? status
      return [⟨.warning, s!"Message send finished with error {status}"⟩]
  | .connectionFailure => some [⟨.error, "Failed to connect to the signaling server"⟩]

/-- The records of events in order. -/
def recordsOf (j : Journal) : List Event → List Record
  | [] => []
  | e :: rest => (j.records? e).getD [] ++ (j.after e).recordsOf rest

/-- The journal after events in order. -/
def afterAll (j : Journal) (events : List Event) : Journal := events.foldl after j

/-- The records that reach a threshold. -/
def shown (threshold : Nat) (records : List Record) : List Record :=
  records.filter fun r => threshold ≤ r.severity.rank

end Journal

end Rendezvous
