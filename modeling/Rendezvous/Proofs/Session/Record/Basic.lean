import Rendezvous.Proofs.Session.Consistency.Runs
import Rendezvous.Proofs.Session.Polling.Reading

/-!
# The record of a run

Everything that happened to the sockets of a session, everything that it asked for, the notes in its
log, and the session itself between steps, in one list with the newest entry first. What there is to
say of a connection is read off the entries since its socket was dialled. The rules that the entries
of a record keep are stated here, each about an entry and what came before it.
-/

namespace Rendezvous

open Wire

/-- An entry of a record. -/
inductive Entry where
  /-- A socket has an event. -/
  | event (socket : Nat) (e : Channel.Event)
  /-- A line of the log. -/
  | line (l : LogEntry Note)
  /-- A step is over and leaves the session as it is. -/
  | rest (s : Session)

namespace Entry

@[match_pattern] abbrev dial (k : Nat) (address : Address) : Entry :=
  .line (.action (.connect k address))

@[match_pattern] abbrev write (k : Nat) (bytes : Bytes) : Entry :=
  .line (.action (.send k bytes))

@[match_pattern] abbrev close (k : Nat) : Entry := .line (.action (.close k))

@[match_pattern] abbrev heard (e : Event) (s : Session) : Entry := .line (.note (.heard e s))

@[match_pattern] abbrev called (c : Call) (answer : Option Bool) : Entry :=
  .line (.note (.called c answer))

/-- Whether a socket is dialled. -/
def dials (k : Nat) : Entry → Bool
  | .dial j _ => j = k
  | _ => false

/-- The bytes received over a socket. -/
def received (k : Nat) : Entry → Bytes
  | .event j (.received bytes) => if j = k then bytes else []
  | _ => []

/-- What is written to a socket, if anything is. -/
def written (k : Nat) : Entry → List Bytes
  | .write j bytes => if j = k then [bytes] else []
  | _ => []

/-- The phase that a socket comes to. -/
def moves (k : Nat) (p : Channel.Phase) : Entry → Channel.Phase
  | .event j e => if j = k then p.after e else p
  | .dial j _ => if j = k then .connecting else p
  | .close j => if j = k then .closed else p
  | _ => p

/-- The session as it was, where the entry holds it. -/
def session? : Entry → Option Session
  | .rest s => some s
  | .heard _ s => some s
  | _ => none

/-- Whether the observer is told that a relay is over. -/
def Reports : Entry → Prop
  | .heard (.messageSent _) _ => True
  | _ => False

variable {k : Nat} {x : Entry}

/-- An entry that dials is a dial. -/
theorem exists_dial (h : x.dials k = true) : ∃ address, x = .dial k address := by
  rcases x with ⟨j, e⟩ | ⟨a | n⟩ | s
  · cases h
  · cases a with
    | connect j address =>
      obtain rfl : j = k := of_decide_eq_true h
      exact ⟨address, rfl⟩
    | _ => cases h
  · cases h
  · cases h

/-- An entry that writes is a write. -/
theorem exists_write (h : x.written k ≠ []) : ∃ bytes, x = .write k bytes := by
  rcases x with ⟨j, e⟩ | ⟨a | n⟩ | s
  · exact absurd rfl h
  · cases a with
    | send j bytes =>
      obtain rfl : j = k := Decidable.not_not.1 fun hne ↦ h (if_neg hne)
      exact ⟨bytes, rfl⟩
    | _ => exact absurd rfl h
  · exact absurd rfl h
  · exact absurd rfl h

end Entry

/-- The peer and the payload that a call asks to relay. -/
def Call.relays? : Call → Option (Int × Bytes)
  | .send peer text => (Request.payloadOf text).toOption.map (peer, ·)
  | .sendBytes peer payload => some (peer, payload)
  | .hangUp peer => some (peer, hangUpToken)
  | _ => none

/-- Whether a call to relay a payload to a peer was granted. -/
def Entry.Grants (x : Entry) (peer : Int) (payload : Bytes) : Prop :=
  ∃ c, x = .called c (some true) ∧ c.relays? = some (peer, payload)

/-! ### Readings -/

namespace Record

/-- The phase of a socket. -/
def phaseIn (k : Nat) : List Entry → Channel.Phase
  | [] => .closed
  | x :: past => x.moves k (phaseIn k past)

/-- The entries since a socket was dialled last. -/
def since (k : Nat) : List Entry → List Entry
  | [] => []
  | x :: past => if x.dials k then [] else x :: since k past

/-- What came first after a socket was dialled. -/
def opener (k : Nat) (past : List Entry) : Option Entry := (since k past).getLast?

/-- The session as it is first known after a socket was dialled. -/
def begun (k : Nat) (past : List Entry) : Option Session :=
  ((since k past).filterMap Entry.session?).getLast?

/-- What was written to a socket since it was dialled. -/
def writes (k : Nat) (past : List Entry) : List Bytes :=
  (since k past).reverse.flatMap (Entry.written k)

/-- What was received over a socket since it was dialled. -/
def stream (k : Nat) (past : List Entry) : Bytes :=
  (since k past).reverse.flatMap (Entry.received k)

/-- What had been received over a socket when it was last written to, since it was dialled. -/
def streamAtWrite (k : Nat) : List Entry → Bytes
  | [] => []
  | x :: past =>
    if x.dials k then [] else if x.written k = [] then streamAtWrite k past else stream k past

/-- The id of the session as it was known last. -/
def latestId (past : List Entry) : Option Int := (past.findSome? Entry.session?).map Session.selfId

variable {k : Nat} {x : Entry} {past : List Entry}

/-- What came since a connection was dialled, after one entry more. -/
@[simp] theorem since_cons : since k (x :: past) = if x.dials k then [] else x :: since k past :=
  rfl

/-- What opened a connection, after one entry more. -/
@[simp] theorem opener_cons : opener k (x :: past) =
    if x.dials k then none else some ((opener k past).getD x) := by
  rw [opener, since_cons]
  split
  · rfl
  · rw [List.getLast?_cons, opener]

/-- How a connection was begun after one entry more. -/
@[simp] theorem begun_cons : begun k (x :: past) =
    if x.dials k then none else (begun k past).or x.session? := by
  rw [begun, since_cons]
  split
  · rfl
  · rw [List.filterMap_cons, begun]
    cases x.session? with
    | none => simp
    | some s =>
      cases h : ((since k past).filterMap Entry.session?).getLast? <;>
        simp [h, List.getLast?_cons]

/-- What was written over a connection, after one entry more. -/
@[simp] theorem writes_cons : writes k (x :: past) =
    if x.dials k then [] else writes k past ++ x.written k := by
  rw [writes, since_cons]
  split <;> simp [writes]

/-- The stream of a connection after one entry more. -/
@[simp] theorem stream_cons : stream k (x :: past) =
    if x.dials k then [] else stream k past ++ x.received k := by
  rw [stream, since_cons]
  split <;> simp [stream]

/-- The id that was seen last, after one entry more. -/
theorem latestId_cons : latestId (x :: past) =
    (x.session?.map Session.selfId).or (latestId past) := by
  rw [latestId, List.findSome?_cons]
  cases x.session? <;> simp [latestId]

/-- The stream at the last write, after one entry more. -/
theorem streamAtWrite_cons : streamAtWrite k (x :: past) =
    if x.dials k then [] else if x.written k = [] then streamAtWrite k past else stream k past :=
  rfl

/-- The phase of a socket after one entry more. -/
theorem phaseIn_cons : phaseIn k (x :: past) = x.moves k (phaseIn k past) := rfl

/-! ### Requests and responses -/

/-- Whether a call to relay was granted when a socket was dialled. -/
def IsRelayed (k : Nat) (past : List Entry) : Prop :=
  ∃ x ∈ opener k past, ∃ peer payload, x.Grants peer payload

/-- The responses that a stream holds and that announce no close, by their number. -/
def answers (limit : Option Int) (bytes : Bytes) : Nat :=
  (NotifyLink.drain ⟨limit, bytes⟩).1.countP (!·.closes)

/-- The request of an exchange, by what came first after its socket was dialled and the session as
it was first known then. -/
def IsRequest (bytes : Bytes) (opener : Option Entry) (s : Session) : Exchange → Prop
  | .signIn => (Request.signInAs s.clientName >>= Request.encode) = .ok bytes
  | .relay => ∃ x ∈ opener, ∃ peer payload, x.Grants peer payload ∧
      (Request.message s.selfId peer payload >>= Request.encode) = .ok bytes
  | .signOut => (Request.signOut s.selfId >>= Request.encode) = .ok bytes

/-- Whether a session has a request of an exchange queued for a socket. -/
def Queues (s : Session) (k : Nat) (what : Exchange) (bytes : Bytes) : Prop :=
  ∃ c ∈ s.command, c.socket = k ∧ c.pending = some bytes ∧ c.exchange = some what

/-- The one write to a command socket. -/
structure IsCommandWrite (k : Nat) (bytes : Bytes) (past : List Entry) : Prop where
  /-- It comes at the connection. -/
  connected : ∃ earlier, past = .event k .connected :: earlier
  /-- Nothing was written since the socket was dialled. -/
  first : writes k past = []
  /-- It is the request that was queued when the socket was dialled. -/
  request : ∃ s ∈ begun k past, ∃ what, Queues s k what bytes ∧
    IsRequest bytes (opener k past) s what

/-- A write to a notify socket. -/
structure IsNotifyWrite (limit : Option Int) (k : Nat) (bytes : Bytes) (past : List Entry) :
    Prop where
  /-- It is a wait under the id of the session. -/
  request : ∃ id ∈ latestId past, NotifyLink.waitBytes id = .ok bytes
  /-- It comes at the connection, or after at least one more response that announces no close. -/
  turn : (writes k past = [] ∧ ∃ earlier, past = .event k .connected :: earlier) ∨
    (writes k past ≠ [] ∧ answers limit (streamAtWrite k past) < answers limit (stream k past))

/-- A chunk completes the response to a relay, and the server granted it: a call to relay was
granted when the socket was dialled, its request was written on this connection, no response was
there before the chunk, and one is with it. -/
structure Completes (limit : Option Int) (k : Nat) (chunk : Bytes) (past : List Entry) : Prop where
  granted : IsRelayed k past
  connected : phaseIn k past = .connected
  asked : writes k past ≠ []
  incomplete : ∀ r, (Framer.poll ⟨limit, stream k past⟩).1 ≠ .ok (some r)
  complete : ∃ r, (Framer.poll ⟨limit, stream k past ++ chunk⟩).1 = .ok (some r) ∧ r.isOk = true

/-- A report of a relay: the response to it was just completed, its connection was closed, and no
report was made since the socket was dialled for it. -/
structure IsReport (limit : Option Int) (status : Int) (past : List Entry) : Prop where
  delivered : status = 0
  cause : ∃ k chunk earlier, past = .close k :: .event k (.received chunk) :: earlier ∧
    Completes limit k chunk earlier ∧ ∀ x ∈ since k earlier, ¬ x.Reports

/-- Whether an entry is what has to come next: where the response to a relay was just completed, the
end of its connection and then the report, and where something was just written, the end of the
step. -/
structure Heeds (limit : Option Int) (x : Entry) (past : List Entry) : Prop where
  close : ∀ k chunk earlier, past = .event k (.received chunk) :: earlier →
    Completes limit k chunk earlier → x = .close k
  report : ∀ k chunk earlier, past = .close k :: .event k (.received chunk) :: earlier →
    Completes limit k chunk earlier → ∃ s, x = .heard (.messageSent 0) s
  rest : ∀ k bytes earlier, past = .write k bytes :: earlier → ∃ s, x = .rest s

/-- Whether an entry is in place after what came before it. -/
structure InPlace (roles : List Role) (limit : Option Int) (x : Entry) (past : List Entry) :
    Prop where
  event : ∀ k e, x = .event k e → (phaseIn k past).Permits e
  dial : ∀ k address, x = .dial k address → phaseIn k past = .closed
  write : ∀ k bytes, x = .write k bytes →
    roles[k]? = some .command ∧ IsCommandWrite k bytes past ∨
      roles[k]? = some .notify ∧ IsNotifyWrite limit k bytes past
  report : ∀ status s, x = .heard (.messageSent status) s → IsReport limit status past
  rest : ∀ s, x = .rest s → ∀ k bytes earlier, past = .write k bytes :: earlier →
    roles[k]? = some .notify → NotifyLink.waitBytes s.selfId = .ok bytes
  heeds : Heeds limit x past

/-- Whether every entry of a record is in place. -/
def IsInOrder (roles : List Role) (limit : Option Int) : List Entry → Prop
  | [] => True
  | x :: past => InPlace roles limit x past ∧ IsInOrder roles limit past

/-- Whether nothing has to come next. -/
def IsSettled (limit : Option Int) (past : List Entry) : Prop := ∀ x, Heeds limit x past

/-! ### Records of runs -/

/-- The record as it stands in the middle of a step. -/
def storyAt (start : Machine) (past : List Entry) (m : Machine) : List Entry :=
  (start.newLines m).map .line ++ past

end Record

/-- What a step brings to the sockets of a machine. -/
def Step.events (m : Machine) : Step → List Entry
  | .socket ref e => (m.find? ref).toList.map (.event · e)
  | _ => []

/-- The machine after a step with the answer to its call noted, as is the answer to a call of the
observer. -/
def Step.noted : Step → Reply → Machine → Machine
  | .call c, .answer a, m => m.note (.called c a)
  | _, _, m => m

/-- Noting a step in the record leaves the session. -/
theorem Record.session_noted {m : Machine} (s : Step) (reply : Reply) :
    (s.noted reply m).session = m.session := by
  cases s <;> cases reply <;> rfl

namespace Machine

/-- The record of a run, after a record of what was before. -/
def recordFrom (o : Observer) (depth : Nat) : Machine → List Entry → List Step → List Entry
  | _, past, [] => past
  | m, past, s :: rest =>
    let out := m.step o depth s
    let story := Record.storyAt m (s.events m ++ past) (s.noted out.1 out.2)
    recordFrom o depth out.2 (.rest out.2.session :: story) rest

/-- The record of a run. -/
def record (o : Observer) (depth : Nat) (m : Machine) (steps : List Step) : List Entry :=
  m.recordFrom o depth [.rest m.session] steps

end Machine

end Rendezvous
