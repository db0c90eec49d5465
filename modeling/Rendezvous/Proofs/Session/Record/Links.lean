import Rendezvous.Proofs.Session.Record.Basic

/-!
# What a record says of the links of a session

How far the exchange in flight has come and by which request, and what the long poll has read. An
entry that concerns another socket changes nothing of this.
-/

namespace Rendezvous

open Wire

/-- Whether an entry says nothing of any connection. -/
def Entry.IsNeutral : Entry → Prop
  | .event _ _ => False
  | .dial _ _ => False
  | .write _ _ => False
  | .close _ => False
  | .heard (.messageSent _) _ => False
  | .called c answer => answer = some true → c.relays? = none
  | _ => True

/-- Whether no rule is about an entry but that something else may have to come. -/
def Entry.IsFree : Entry → Prop
  | .event _ _ => False
  | .dial _ _ => False
  | .write _ _ => False
  | .heard (.messageSent _) _ => False
  | _ => True

/-- What no rule is about is free. -/
theorem Entry.IsNeutral.isFree {x : Entry} (h : x.IsNeutral) : x.IsFree := by
  rcases x with ⟨j, e⟩ | ⟨a | n⟩ | s
  · exact h.elim
  · cases a <;> first | exact h.elim | trivial
  · cases n with
    | heard e s => cases e <;> first | exact h.elim | trivial
    | called => trivial
  · trivial

/-- What no rule is about reports nothing. -/
theorem Entry.IsNeutral.not_reports {x : Entry} (h : x.IsNeutral) : ¬ x.Reports := by
  rcases x with ⟨j, e⟩ | ⟨a | n⟩ | s
  · exact id
  · exact id
  · cases n with
    | heard e s => cases e <;> first | exact h.elim | exact id
    | called => exact id
  · exact id

namespace Record

variable {limit : Option Int} {roles : List Role} {k : Nat} {x : Entry} {past : List Entry}

/-! ### Entries that do not concern a socket -/

/-- Whether an entry says nothing of the connection over a socket. -/
structure IsAside (k : Nat) (x : Entry) (past : List Entry) : Prop where
  dials : x.dials k = false
  received : x.received k = []
  written : x.written k = []
  moves : ∀ p, x.moves k p = p
  grants : opener k past = none → ∀ peer payload, ¬ x.Grants peer payload

private theorem IsAside.phaseIn (h : IsAside k x past) : phaseIn k (x :: past) = phaseIn k past :=
  h.moves _

private theorem IsAside.writes (h : IsAside k x past) : writes k (x :: past) = writes k past := by
  simp [h.dials, h.written]

private theorem IsAside.stream (h : IsAside k x past) : stream k (x :: past) = stream k past := by
  simp [h.dials, h.received]

private theorem IsAside.streamAtWrite (h : IsAside k x past) :
    streamAtWrite k (x :: past) = streamAtWrite k past := by
  simp [streamAtWrite_cons, h.dials, h.written]

private theorem IsAside.begun (h : IsAside k x past) :
    begun k (x :: past) = (begun k past).or x.session? := by
  simp [h.dials]

/-- What comes later does not tell whether a call to relay was granted first. -/
theorem isRelayed_cons (hdials : x.dials k = false)
    (hgrants : opener k past = none → ∀ peer payload, ¬ x.Grants peer payload) :
    IsRelayed k (x :: past) ↔ IsRelayed k past := by
  rw [IsRelayed, IsRelayed, opener_cons, hdials]
  cases hopener : opener k past with
  | none => simpa using hgrants hopener
  | some y => simp

/-- No event makes a relay. -/
@[simp] theorem isRelayed_event {j : Nat} {e : Channel.Event} :
    IsRelayed k (.event j e :: past) ↔ IsRelayed k past :=
  isRelayed_cons rfl fun _ _ _ ⟨_, heq, _⟩ ↦ by cases heq

/-- No write makes a relay. -/
@[simp] theorem isRelayed_write {j : Nat} {bytes : Bytes} :
    IsRelayed k (.write j bytes :: past) ↔ IsRelayed k past :=
  isRelayed_cons rfl fun _ _ _ ⟨_, heq, _⟩ ↦ by cases heq

private theorem IsAside.isRelayed_iff (h : IsAside k x past) :
    IsRelayed k (x :: past) ↔ IsRelayed k past :=
  isRelayed_cons h.dials h.grants

/-- What came first stays so, and what is no relay is asked for in the same way whatever comes
first. -/
theorem isRequest_cons (h : x.dials k = false) {bytes : Bytes} {s : Session} {what : Exchange}
    (hrequest : IsRequest bytes (opener k past) s what) :
    IsRequest bytes (opener k (x :: past)) s what := by
  cases what with
  | signIn => exact hrequest
  | signOut => exact hrequest
  | relay =>
    obtain ⟨y, hy, hgrants⟩ := hrequest
    refine ⟨y, ?_, hgrants⟩
    simp [h, Option.mem_def.1 hy]

/-- What is heard is aside of every socket. -/
theorem isAside_heard (k : Nat) (e : Event) (s : Session) (past : List Entry) :
    IsAside k (.heard e s) past :=
  ⟨rfl, rfl, rfl, fun _ ↦ rfl, by simp [Entry.Grants]⟩

/-- A neutral entry is aside of every socket. -/
theorem isAside_of_isNeutral (h : x.IsNeutral) (k : Nat) (past : List Entry) :
    IsAside k x past := by
  rcases x with ⟨j, e⟩ | ⟨a | n⟩ | s
  · exact h.elim
  · cases a with
    | connect => exact h.elim
    | send => exact h.elim
    | close => exact h.elim
    | _ => exact ⟨rfl, rfl, rfl, fun _ ↦ rfl, by simp [Entry.Grants]⟩
  · cases n with
    | heard e s => exact isAside_heard k e s past
    | called c answer =>
      refine ⟨rfl, rfl, rfl, fun _ ↦ rfl, ?_⟩
      rintro - peer payload ⟨c', heq, hrelays⟩
      cases heq
      cases (h rfl).symm.trans hrelays
  · exact ⟨rfl, rfl, rfl, fun _ ↦ rfl, by simp [Entry.Grants]⟩

/-- The closing of another socket is aside. -/
theorem isAside_close {j : Nat} (h : j ≠ k) (past : List Entry) : IsAside k (.close j) past :=
  ⟨rfl, rfl, rfl, fun _ ↦ if_neg h, by simp [Entry.Grants]⟩

/-- The dial of another socket is aside. -/
theorem isAside_dial {j : Nat} (h : j ≠ k) (address : Address) (past : List Entry) :
    IsAside k (.dial j address) past :=
  ⟨decide_eq_false h, rfl, rfl, fun _ ↦ if_neg h, by simp [Entry.Grants]⟩

/-- A write over another socket is aside. -/
theorem isAside_write {j : Nat} (h : j ≠ k) (bytes : Bytes) (past : List Entry) :
    IsAside k (.write j bytes) past :=
  ⟨rfl, rfl, if_neg h, fun _ ↦ rfl, by simp [Entry.Grants]⟩

/-- An event of another socket is aside. -/
theorem isAside_event {j : Nat} (h : j ≠ k) (e : Channel.Event) (past : List Entry) :
    IsAside k (.event j e) past := by
  refine ⟨rfl, ?_, rfl, fun _ ↦ if_neg h, by simp [Entry.Grants]⟩
  cases e <;> simp [Entry.received, h]

/-- Whether a call to relay is granted says nothing of a connection that something came first on. -/
theorem isAside_granted {c : Call} {answer : Option Bool} (h : opener k past ≠ none) :
    IsAside k (.called c answer) past :=
  ⟨rfl, rfl, rfl, fun _ ↦ rfl, fun hnone ↦ absurd hnone h⟩

/-! ### Entries in their place -/

/-- An event is in its place where the phase of its socket permits it. -/
theorem inPlace_event {e : Channel.Event} (hpermits : (phaseIn k past).Permits e)
    (hheeds : Heeds limit (.event k e) past) : InPlace roles limit (.event k e) past where
  event j e' heq := by
    cases heq
    exact hpermits
  dial _ _ heq := by cases heq
  write _ _ heq := by cases heq
  report _ _ heq := by cases heq
  rest _ heq := by cases heq
  heeds := hheeds

/-- A dial is in its place where the socket is closed. -/
theorem inPlace_dial {address : Address} (hclosed : phaseIn k past = .closed)
    (hheeds : Heeds limit (.dial k address) past) : InPlace roles limit (.dial k address) past where
  event _ _ heq := by cases heq
  dial j _ heq := by
    cases heq
    exact hclosed
  write _ _ heq := by cases heq
  report _ _ heq := by cases heq
  rest _ heq := by cases heq
  heeds := hheeds

/-- A write is in its place where it is one that its socket is for. -/
theorem inPlace_write {bytes : Bytes}
    (hwrite : roles[k]? = some .command ∧ IsCommandWrite k bytes past ∨
      roles[k]? = some .notify ∧ IsNotifyWrite limit k bytes past)
    (hheeds : Heeds limit (.write k bytes) past) : InPlace roles limit (.write k bytes) past where
  event _ _ heq := by cases heq
  dial _ _ heq := by cases heq
  write j _ heq := by
    cases heq
    exact hwrite
  report _ _ heq := by cases heq
  rest _ heq := by cases heq
  heeds := hheeds

/-- A closing is in its place where it heeds what comes before. -/
theorem inPlace_close (hheeds : Heeds limit (.close k) past) :
    InPlace roles limit (.close k) past where
  event _ _ heq := by cases heq
  dial _ _ heq := by cases heq
  write _ _ heq := by cases heq
  report _ _ heq := by cases heq
  rest _ heq := by cases heq
  heeds := hheeds

/-- The report of a delivery is in its place where the delivery comes before. -/
theorem inPlace_report {status : Int} {s : Session} (hreport : IsReport limit status past)
    (hheeds : Heeds limit (.heard (.messageSent status) s) past) :
    InPlace roles limit (.heard (.messageSent status) s) past where
  event _ _ heq := by cases heq
  dial _ _ heq := by cases heq
  write _ _ heq := by cases heq
  report _ _ heq := by
    cases heq
    exact hreport
  rest _ heq := by cases heq
  heeds := hheeds

/-- The end of a step is in its place where the request that was written last is the wait of the
session. -/
theorem inPlace_rest {s : Session} {bytes : Bytes}
    (hwait : roles[k]? = some .notify → NotifyLink.waitBytes s.selfId = .ok bytes) :
    InPlace roles limit (.rest s) (.write k bytes :: past) where
  event _ _ heq := by cases heq
  dial _ _ heq := by cases heq
  write _ _ heq := by cases heq
  report _ _ heq := by cases heq
  rest _ heq _ _ _ hpast hrole := by
    cases heq
    cases hpast
    exact hwait hrole
  heeds := ⟨fun _ _ _ heq ↦ (by cases heq), fun _ _ _ heq ↦ (by cases heq), fun _ _ _ _ ↦ ⟨s, rfl⟩⟩

/-- Nothing but the completion of a response to a relay and a write asks for something to come
next. -/
theorem IsSettled.cons (h : IsSettled limit past)
    (hx : ∀ j chunk, x = .event j (.received chunk) → ¬ Completes limit j chunk past)
    (hwrite : ∀ j bytes, x ≠ .write j bytes) : IsSettled limit (x :: past) := by
  intro y
  refine ⟨?_, ?_, ?_⟩
  · intro j chunk earlier heq hcompletes
    cases heq
    exact absurd hcompletes (hx j chunk rfl)
  · intro j chunk earlier heq hcompletes
    cases heq
    have hclose := (h (.event 0 .connected)).close j chunk earlier rfl hcompletes
    cases hclose
  · intro j bytes earlier heq
    cases heq
    exact absurd rfl (hwrite j bytes)

/-- What no rule is about is in place where nothing else has to come. -/
theorem IsSettled.inPlace (h : IsSettled limit past) (hx : x.IsFree) :
    InPlace roles limit x past where
  event k e heq := by
    subst heq
    exact hx.elim
  dial k address heq := by
    subst heq
    exact hx.elim
  write k bytes heq := by
    subst heq
    exact hx.elim
  report status s heq := by
    subst heq
    exact hx.elim
  rest s _ k bytes earlier heq := by
    obtain ⟨now, hnow⟩ := (h (.event 0 .connected)).rest k bytes earlier heq
    cases hnow
  heeds := h x

/-- A record that is settled stays so after an entry that no rule is about. -/
theorem IsSettled.cons_of_isNeutral (h : IsSettled limit past) (hx : x.IsNeutral) :
    IsSettled limit (x :: past) := by
  apply h.cons
  · intro j chunk heq
    subst heq
    exact hx.elim
  · intro j bytes heq
    subst heq
    exact hx.elim

/-- Sockets may be made after a record that is in order. -/
theorem IsInOrder.mono {roles' : List Role} (h : IsInOrder roles limit past)
    (hroles : roles <+: roles') : IsInOrder roles' limit past := by
  induction past with
  | nil => trivial
  | cons x earlier ih =>
    have hmade {k : Nat} {role : Role} (hk : roles[k]? = some role) : roles'[k]? = some role := by
      obtain ⟨more, rfl⟩ := hroles
      rw [List.getElem?_append_left (List.getElem?_eq_some_iff.1 hk).1]
      exact hk
    refine ⟨{ h.1 with write := ?_, rest := ?_ }, ih h.2⟩
    · intro k bytes heq
      exact (h.1.write k bytes heq).imp (And.imp_left hmade) (And.imp_left hmade)
    · intro s heq k bytes first hfirst hrole
      subst hfirst
      rcases h.2.1.write k bytes rfl with ⟨hcommand, -⟩ | ⟨hnotify, -⟩
      · cases hrole.symm.trans (hmade hcommand)
      · exact h.1.rest s heq k bytes first rfl hnotify

/-! ### What there is to say of the links -/

/-- The request of the exchange in flight is queued and not written yet. -/
structure IsQueued (story : List Entry) (s : Session) (c : CommandLink) (what : Exchange) :
    Prop where
  phase : phaseIn c.socket story = .connecting
  writes : writes c.socket story = []
  stream : stream c.socket story = []
  buffer : c.framer.buffer = []
  request : ∃ bytes, c.pending = some bytes ∧
    Queues ((begun c.socket story).getD s) c.socket what bytes ∧
    IsRequest bytes (opener c.socket story) ((begun c.socket story).getD s) what

/-- The request of the exchange in flight was written, and the response is not complete. -/
structure IsAsked (limit : Option Int) (story : List Entry) (c : CommandLink) : Prop where
  pending : c.pending = none
  phase : phaseIn c.socket story = .connected
  writes : writes c.socket story ≠ []
  stream : stream c.socket story = c.framer.buffer
  incomplete : ∀ r, (Framer.poll ⟨limit, c.framer.buffer⟩).1 ≠ .ok (some r)

/-- How far the exchange in flight has come. -/
structure Underway (limit : Option Int) (story : List Entry) (s : Session) (c : CommandLink)
    (what : Exchange) : Prop where
  relay : what = .relay ↔ IsRelayed c.socket story
  unreported : ∀ x ∈ since c.socket story, ¬ x.Reports
  state : IsQueued story s c what ∨ IsAsked limit story c

/-- The command link of a session. -/
structure Serves (roles : List Role) (limit : Option Int) (story : List Entry) (s : Session)
    (c : CommandLink) : Prop where
  role : roles[c.socket]? = some .command
  bound : c.framer.limit = limit
  underway : ∀ what, c.exchange = some what → Underway limit story s c what

/-- A framer that has taken responses off a stream goes on where it stopped, and none of them
announced a close. -/
structure Reads (limit : Option Int) (stream : Bytes) (f : Framer) (taken : List Response) :
    Prop where
  stays : ∀ r ∈ taken, r.closes = false
  drain : ∀ more, NotifyLink.drain ⟨limit, stream ++ more⟩ =
    (taken ++ (NotifyLink.drain (f.feed more)).1, (NotifyLink.drain (f.feed more)).2)
  waits : ∀ found, f.next? ≠ .ok (some found)

/-- The notify link of a session. Where a wait is due, responses came since the last one. -/
structure Attends (roles : List Role) (limit : Option Int) (due : Prop) (story : List Entry)
    (n : NotifyLink) : Prop where
  role : roles[n.socket]? = some .notify
  bound : n.framer.limit = limit
  empty : phaseIn n.socket story ≠ .connected → n.framer.buffer = []
  fresh : phaseIn n.socket story = .connecting →
    writes n.socket story = [] ∧ stream n.socket story = []
  opener : phaseIn n.socket story ≠ .closed → ¬ IsRelayed n.socket story
  reading : phaseIn n.socket story = .connected → writes n.socket story ≠ [] ∧
    ∃ taken, Reads limit (stream n.socket story) n.framer taken ∧
      (due → answers limit (streamAtWrite n.socket story) < taken.length)

variable {story : List Entry} {s s' : Session} {c : CommandLink} {n : NotifyLink}
  {what : Exchange} {due : Prop}

private theorem IsQueued.cons (h : IsQueued story s c what) (hx : IsAside c.socket x story)
    (hs : ∀ now ∈ x.session?, now = s) : IsQueued (x :: story) s c what where
  phase := hx.phaseIn.trans h.phase
  writes := hx.writes.trans h.writes
  stream := hx.stream.trans h.stream
  buffer := h.buffer
  request := by
    have hbegun : (begun c.socket (x :: story)).getD s = (begun c.socket story).getD s := by
      rw [hx.begun]
      cases hfirst : begun c.socket story with
      | some first => rfl
      | none =>
        cases hnow : x.session? with
        | none => rfl
        | some now => exact hs now hnow
    obtain ⟨bytes, hpending, hqueues, hrequest⟩ := h.request
    rw [hbegun]
    exact ⟨bytes, hpending, hqueues, isRequest_cons hx.dials hrequest⟩

private theorem IsAsked.cons (h : IsAsked limit story c) (hx : IsAside c.socket x story) :
    IsAsked limit (x :: story) c where
  pending := h.pending
  phase := hx.phaseIn.trans h.phase
  writes := by rw [hx.writes]; exact h.writes
  stream := hx.stream.trans h.stream
  incomplete := h.incomplete

/-- An exchange is as far as it was after an entry that is aside of it. -/
theorem Underway.cons (h : Underway limit story s c what) (hx : IsAside c.socket x story)
    (hreports : ¬ x.Reports) (hs : ∀ now ∈ x.session?, now = s) :
    Underway limit (x :: story) s c what where
  relay := h.relay.trans hx.isRelayed_iff.symm
  unreported := by
    rw [since_cons, hx.dials, if_neg Bool.false_ne_true]
    exact List.forall_mem_cons.2 ⟨hreports, h.unreported⟩
  state := h.state.imp (·.cons hx hs) (·.cons hx)

/-- Of the session itself it matters only what was queued, and under which name and id. -/
theorem Underway.congr (h : Underway limit story s c what) (hcommand : s'.command = s.command)
    (hname : s'.clientName = s.clientName) (hid : s'.selfId = s.selfId) :
    Underway limit story s' c what where
  relay := h.relay
  unreported := h.unreported
  state := by
    apply h.state.imp_left
    intro hqueued
    refine { hqueued with request := ?_ }
    obtain ⟨bytes, hpending, hqueues, hrequest⟩ := hqueued.request
    refine ⟨bytes, hpending, ?_⟩
    cases hfirst : begun c.socket story with
    | some first =>
      rw [hfirst] at hqueues hrequest
      exact ⟨hqueues, hrequest⟩
    | none =>
      rw [hfirst] at hqueues hrequest
      constructor
      · show Queues s' c.socket what bytes
        rw [Queues, hcommand]
        exact hqueues
      · show IsRequest bytes _ s' what
        cases what <;> simp only [IsRequest, hname, hid] at hrequest ⊢ <;> exact hrequest

/-- The command link serves on after an entry that is aside of it. -/
theorem Serves.cons (h : Serves roles limit story s c) (hx : IsAside c.socket x story)
    (hreports : ¬ x.Reports) (hs : ∀ now ∈ x.session?, now = s) :
    Serves roles limit (x :: story) s c where
  role := h.role
  bound := h.bound
  underway what hwhat := (h.underway what hwhat).cons hx hreports hs

/-- A command socket is no notify socket. -/
theorem Serves.apart (h : Serves roles limit story s c) (hrole : roles[k]? = some .notify) :
    c.socket ≠ k := by
  rintro rfl
  cases hrole.symm.trans h.role

/-- How the command link serves depends on the link, the name and the id only. -/
theorem Serves.congr (h : Serves roles limit story s c) (hcommand : s'.command = s.command)
    (hname : s'.clientName = s.clientName) (hid : s'.selfId = s.selfId) :
    Serves roles limit story s' c where
  role := h.role
  bound := h.bound
  underway what hwhat := (h.underway what hwhat).congr hcommand hname hid

/-- The notify link attends to its wait after an entry that is aside of it. -/
theorem Attends.cons (h : Attends roles limit due story n) (hx : IsAside n.socket x story) :
    Attends roles limit due (x :: story) n where
  role := h.role
  bound := h.bound
  empty hphase := h.empty (hx.phaseIn ▸ hphase)
  fresh hphase := by
    rw [hx.writes, hx.stream]
    exact h.fresh (hx.phaseIn.symm.trans hphase)
  opener hphase := by
    rw [hx.isRelayed_iff]
    exact h.opener (hx.phaseIn ▸ hphase)
  reading hphase := by
    rw [hx.writes, hx.stream, hx.streamAtWrite]
    exact h.reading (hx.phaseIn.symm.trans hphase)

/-- That a step is over changes nothing. -/
theorem Serves.rest (h : Serves roles limit story s c) :
    Serves roles limit (.rest s :: story) s c := by
  refine h.cons (isAside_of_isNeutral (x := .rest s) trivial _ _) id ?_
  rintro now hnow
  cases hnow
  rfl

/-- The notify link attends to its wait after a step. -/
theorem Attends.rest (h : Attends roles limit due story n) (s : Session) :
    Attends roles limit due (.rest s :: story) n :=
  h.cons (isAside_of_isNeutral (x := .rest s) trivial _ _)

/-- A notify link whose socket is closed has read nothing. -/
theorem attends_of_closed (hrole : roles[n.socket]? = some .notify)
    (hbound : n.framer.limit = limit) (hempty : n.framer.buffer = [])
    (hclosed : phaseIn n.socket story = .closed) : Attends roles limit due story n where
  role := hrole
  bound := hbound
  empty _ := hempty
  fresh hphase := by cases hclosed.symm.trans hphase
  opener hopen := absurd hclosed hopen
  reading hphase := by cases hclosed.symm.trans hphase

/-! ### Reading -/

variable {stream : Bytes} {f : Framer} {taken : List Response}

/-- Where no response is complete, none is handed over. -/
theorem drain_eq_nil (h : ∀ found, f.next? ≠ .ok (some found)) :
    (NotifyLink.drain f).1 = [] := by
  rcases hnext : f.next? with e | _ | found
  · rw [NotifyLink.drain_of_error hnext]
  · rw [NotifyLink.drain_of_none hnext]
  · exact absurd hnext (h found)

/-- Where the reading goes on, no response announced a close. -/
theorem stays_of_more (h : (NotifyLink.drain f).2.1 = .more) :
    ∀ r ∈ (NotifyLink.drain f).1, r.closes = false := by
  induction f using Framer.drain_induction with
  | error f e he => simp [NotifyLink.drain_of_error he]
  | wait f hwait => simp [NotifyLink.drain_of_none hwait]
  | found f response rest hnext ih =>
    cases hcloses : response.closes with
    | true => simp [NotifyLink.drain_of_closes hnext hcloses] at h
    | false =>
      rw [NotifyLink.drain_of_stays hnext hcloses] at h ⊢
      exact List.forall_mem_cons.2 ⟨hcloses, ih h⟩

/-- Behind a response that announces a close nothing is held. -/
theorem buffer_of_closing (h : (NotifyLink.drain f).2.1 = .closing) :
    (NotifyLink.drain f).2.2.buffer = [] := by
  induction f using Framer.drain_induction with
  | error f e he => simp [NotifyLink.drain_of_error he] at h
  | wait f hwait => simp [NotifyLink.drain_of_none hwait] at h
  | found f response rest hnext ih =>
    cases hcloses : response.closes with
    | true => simp [NotifyLink.drain_of_closes hnext hcloses, Framer.reset]
    | false =>
      rw [NotifyLink.drain_of_stays hnext hcloses] at h ⊢
      exact ih h

/-- Nothing is taken off a stream that has not begun. -/
theorem reads_nil (limit : Option Int) : Reads limit [] ⟨limit, []⟩ [] where
  stays := by simp
  drain _ := rfl
  waits := Framer.awaitMore_ne_some _

/-- A reading goes on with more bytes. -/
theorem Reads.feed (h : Reads limit stream f taken) {chunk : Bytes}
    (hmore : (NotifyLink.drain (f.feed chunk)).2.1 = .more) :
    Reads limit (stream ++ chunk) (NotifyLink.drain (f.feed chunk)).2.2
      (taken ++ (NotifyLink.drain (f.feed chunk)).1) where
  stays r hr := (List.mem_append.1 hr).elim (h.stays r) (stays_of_more hmore r)
  drain more := by
    rw [List.append_assoc, h.drain, ← Framer.feed_feed, NotifyLink.drain_feed_of_more hmore,
      List.append_assoc]
  waits := by simp [NotifyLink.next?_drain hmore]

/-- The responses that were taken off a stream are those that it holds. -/
theorem Reads.answers (h : Reads limit stream f taken) : answers limit stream = taken.length := by
  have hfeed : f.feed [] = f := by simp [Framer.feed]
  have hdrain := h.drain []
  rw [List.append_nil, hfeed, drain_eq_nil h.waits, List.append_nil] at hdrain
  rw [Record.answers, hdrain, List.countP_eq_length]
  intro r hr
  simp [h.stays r hr]

/-- More bytes hold at least as many responses. -/
theorem answers_le (limit : Option Int) (stream more : Bytes) :
    answers limit stream ≤ answers limit (stream ++ more) := by
  suffices hall : ∀ f : Framer, (NotifyLink.drain f).1.countP (!·.closes) ≤
      (NotifyLink.drain (f.feed more)).1.countP (!·.closes) from hall ⟨limit, stream⟩
  intro f
  induction f using Framer.drain_induction with
  | error f e he => simp [NotifyLink.drain_of_error he]
  | wait f hwait => simp [NotifyLink.drain_of_none hwait]
  | found f response rest hnext ih =>
    have hmore := Framer.next?_feed hnext more
    cases hcloses : response.closes with
    | true => simp [NotifyLink.drain_of_closes hnext hcloses, hcloses]
    | false =>
      rw [NotifyLink.drain_of_stays hnext hcloses, NotifyLink.drain_of_stays hmore hcloses]
      simp only [List.countP_cons, hcloses]
      exact Nat.add_le_add_right ih _

end Record

end Rendezvous
