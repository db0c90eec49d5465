import Rendezvous.Proofs.Session.Record.Events

/-!
# Events of sockets keep the record in order

Between steps the record tells of a session that stands as it should. An event of a socket that a
working network reports is then one of a link, and what the session makes of it is in place.
-/

namespace Rendezvous

open Wire

/-- What comes of received bytes: they cannot be framed, or more are needed, or the exchange is over
with a response. -/
theorem CommandLink.receive_reading {ν : Type} (l : CommandLink) (bytes : Bytes) (h : Host ν) :
    (∃ e, (l.framer.feed bytes).next? = .error e ∧
        l.receive bytes h = (.error e, { l with framer := l.framer.feed bytes }, h)) ∨
      ((l.framer.feed bytes).next? = .ok none ∧
        l.receive bytes h = (.ok none, { l with framer := l.framer.feed bytes }, h)) ∨
      ∃ response rest, (l.framer.feed bytes).next? = .ok (some (response, rest)) ∧
        l.receive bytes h = (.ok (some (l.exchange, response)),
          { l with framer := l.framer.reset, exchange := none }, h.close l.socket) := by
  rw [receive, Framer.poll]
  rcases hnext : (l.framer.feed bytes).next? with e | _ | ⟨response, rest⟩
  · exact .inl ⟨e, rfl, rfl⟩
  · exact .inr (.inl ⟨rfl, rfl⟩)
  · exact .inr (.inr ⟨response, rest, rfl, rfl⟩)

namespace Record

variable {config : Config} {m : Machine} {past : List Entry} {c : CommandLink} {n : NotifyLink}
  {what : Exchange} {limit : Option Int} {s : Session} {k : Nat} {e : Channel.Event}

/-- A session between two steps, which the record has noted as it is. -/
structure Ready (config : Config) (past : List Entry) (m : Machine) : Prop where
  kept : Kept config False past m
  stands : m.Stands config False .none
  rested : ∃ earlier, past = .rest m.session :: earlier

private theorem Ready.latestId (h : Ready config past m) :
    latestId past = some m.session.selfId := by
  obtain ⟨earlier, rfl⟩ := h.rested
  rfl

private theorem Ready.exists_begun (h : Ready config past m) (k : Nat) :
    ∃ s, begun k past = some s := by
  obtain ⟨earlier, rfl⟩ := h.rested
  have hdials : Entry.dials k (.rest m.session) = false := rfl
  rw [begun_cons, hdials, if_neg Bool.false_ne_true]
  cases begun k earlier with
  | none => exact ⟨_, rfl⟩
  | some s => exact ⟨s, rfl⟩

/-- What holds of a machine at an event, once some lines were added to the log. -/
theorem at_event (m : Machine) (lines : List (LogEntry Note)) {P : List Entry → Machine → Prop}
    {m' : Machine} (h : P (lines.map .line ++ .event k e :: past) m')
    (hlog : m'.host.log = lines ++ m.host.log) : At m (.event k e :: past) P m' where
  later := by simp [hlog]
  holds := by
    have hlines : m.newLines m' = lines := by
      rw [Machine.newLines, hlog, List.length_append, Nat.add_sub_cancel, List.take_left]
    rw [storyAt, hlines]
    exact h

/-- A closed socket permits no event. -/
theorem isOpen_of_permits {p : Channel.Phase} (h : p.Permits e) : p ≠ .closed := by
  rintro rfl
  cases e with
  | connected => cases h
  | received bytes => cases h
  | closed code => exact h rfl

/-- The exchange in flight, while the command socket is not closed. -/
theorem Ready.underway (h : Ready config past m) (hc : m.session.command = some c)
    (hopen : m.host.phaseOf c.socket ≠ .closed) :
    ∃ what, c.exchange = some what ∧
      Underway (some config.maxResponseSize) past m.session c what := by
  obtain ⟨what, hwhat⟩ := Option.ne_none_iff_exists'.1 (h.stands.busy hc hopen)
  exact ⟨what, hwhat, (h.kept.command c hc).underway what hwhat⟩

/-- What is recorded of the notify link is not changed by what the command socket brings. -/
theorem Ready.attends_event (h : Ready config past m) (hc : m.session.command = some c)
    (e : Channel.Event) : ∀ n ∈ m.session.notify,
      Attends m.host.roles (some config.maxResponseSize) False (.event c.socket e :: past) n :=
  fun n hn ↦ (h.kept.notify n hn).cons (isAside_event (h.kept.apart hc hn) e past)

/-! ### The command socket -/

/-- What is queued is what is to be written at the connection. -/
theorem IsQueued.isCommandWrite (h : IsQueued past s c what) {first : Session}
    (hfirst : begun c.socket past = some first) {bytes : Bytes}
    (hpending : c.pending = some bytes) :
    IsCommandWrite c.socket bytes (.event c.socket .connected :: past) where
  connected := ⟨past, rfl⟩
  first := by simp [Entry.dials, Entry.written, h.writes]
  request := by
    obtain ⟨queued, hqueued, hqueues, hrequest⟩ := h.request
    cases hpending.symm.trans hqueued
    rw [hfirst] at hqueues hrequest
    refine ⟨first, ?_, what, hqueues, ?_⟩
    · simp [Entry.dials, Entry.session?, hfirst]
    · exact isRequest_cons rfl hrequest

/-- While the command socket is connecting, a request is queued. -/
theorem Ready.queued (h : Ready config past m) (hc : m.session.command = some c)
    (hconnecting : m.host.phaseOf c.socket = .connecting) :
    ∃ what, c.exchange = some what ∧
      Underway (some config.maxResponseSize) past m.session c what ∧
      IsQueued past m.session c what := by
  have hopen := isOpen_of_permits (e := .connected) hconnecting
  obtain ⟨what, hwhat, hunderway⟩ := h.underway hc hopen
  refine ⟨what, hwhat, hunderway, hunderway.state.resolve_right fun hasked ↦ ?_⟩
  cases ((h.kept.phases _).trans hconnecting).symm.trans hasked.phase

/-- While the command link connects, its request is pending. -/
theorem Ready.exists_pending (h : Ready config past m) (hc : m.session.command = some c)
    (hconnecting : m.host.phaseOf c.socket = .connecting) : ∃ bytes, c.pending = some bytes := by
  obtain ⟨_, _, _, hqueued⟩ := h.queued hc hconnecting
  obtain ⟨bytes, hpending, -⟩ := hqueued.request
  exact ⟨bytes, hpending⟩

/-- That the command link is connected is recorded. -/
theorem Ready.recorded_connected (h : Ready config past m) (hc : m.session.command = some c)
    (hconnecting : m.host.phaseOf c.socket = .connecting) :
    Recorded config (.event c.socket .connected :: past) (moved m c.socket .connected) :=
  h.kept.recorded.event .connected (Host.lt_of_role (h.kept.command c hc).role) hconnecting
    fun _ heq ↦ by cases heq

/-- A request is written once its connection is there, and then its response is waited for. -/
theorem Ready.writeRequest (h : Ready config past m) (hc : m.session.command = some c)
    (hconnecting : m.host.phaseOf c.socket = .connecting) {bytes : Bytes}
    (hpending : c.pending = some bytes) :
    Rests config (.write c.socket bytes :: .event c.socket .connected :: past)
      ((moved m c.socket .connected).putCommand ({ c with pending := none },
        (moved m c.socket .connected).host.ask (.send c.socket bytes))) := by
  have hserves := h.kept.command c hc
  have hroles := (shares_moved m c.socket .connected).roles
  obtain ⟨what, hwhat, hunderway, hqueued⟩ := h.queued hc hconnecting
  obtain ⟨first, hfirst⟩ := h.exists_begun c.socket
  refine h.kept.putCommand hc rfl ?_ ⟨hserves.role, hserves.bound, fun what' hwhat' ↦ ?_⟩
    (fun n hn ↦ ?_) (fun hdue ↦ hdue.elim) hroles fun _ ↦ id
  · have hwrite := hqueued.isCommandWrite hfirst hpending
    refine (h.recorded_connected hc hconnecting).write (.inl ⟨?_, hwrite⟩) (fun hnotify ↦ ?_)
      ⟨rfl, rfl, rfl⟩ fun _ ↦ rfl
    · rw [hroles]
      exact hserves.role
    · rw [hroles] at hnotify
      cases hnotify.symm.trans hserves.role
  · cases hwhat.symm.trans hwhat'
    have hasked : IsAsked (some config.maxResponseSize)
        (.write c.socket bytes :: .event c.socket .connected :: past)
        { c with pending := none } := by
      refine ⟨rfl, ?_, ?_, ?_, ?_⟩
      · show (if c.socket = c.socket then _ else _) = _
        rw [if_pos rfl]
        rfl
      · simp [Entry.dials, Entry.written]
      · simp [Entry.dials, Entry.received, hqueued.stream, hqueued.buffer]
      · intro response hfound
        obtain ⟨rest, hnext⟩ := Framer.fst_poll_eq_some_iff.1 hfound
        rw [hqueued.buffer] at hnext
        exact Framer.awaitMore_ne_some _ _ hnext
    have hwritten : Underway (some config.maxResponseSize)
        (.write c.socket bytes :: .event c.socket .connected :: past)
        ((moved m c.socket .connected).putCommand ({ c with pending := none },
          (moved m c.socket .connected).host.ask (.send c.socket bytes))).session
        { c with pending := none } what := by
      refine ⟨?_, ?_, .inr hasked⟩
      · rw [isRelayed_write, isRelayed_event]
        exact hunderway.relay
      · simpa [Entry.dials, Entry.Reports] using hunderway.unreported
    refine hwritten.cons (isAside_of_isNeutral (x := .rest _) trivial _ _) id ?_
    rintro now hnow
    cases hnow
    rfl
  · have hattends := h.attends_event hc .connected n hn
    exact (hattends.cons (isAside_write (h.kept.apart hc hn) bytes _)).rest _

/-- What was received, once more is fed. -/
theorem IsAsked.feed (h : IsAsked limit past c) (hbound : c.framer.limit = limit) (bytes : Bytes) :
    (⟨limit, Record.stream c.socket past ++ bytes⟩ : Framer) = c.framer.feed bytes := by
  rw [h.stream, ← hbound]
  rfl

/-- A relay is over with a response that grants it just where the record says that the response was
completed. -/
theorem IsAsked.completes_iff (h : IsAsked limit past c) (hbound : c.framer.limit = limit)
    (bytes : Bytes) : Completes limit c.socket bytes past ↔ IsRelayed c.socket past ∧
      ∃ response rest, (c.framer.feed bytes).next? = .ok (some (response, rest)) ∧
        response.isOk = true := by
  constructor
  · intro hcompletes
    obtain ⟨response, hfound, hok⟩ := hcompletes.complete
    rw [h.feed hbound] at hfound
    obtain ⟨rest, hnext⟩ := Framer.fst_poll_eq_some_iff.1 hfound
    exact ⟨hcompletes.granted, response, rest, hnext, hok⟩
  · rintro ⟨hgranted, response, rest, hnext, hok⟩
    refine ⟨hgranted, h.phase, h.writes, ?_, response, ?_, hok⟩
    · rw [h.stream]
      exact h.incomplete
    · rw [h.feed hbound]
      exact Framer.fst_poll_eq_some_iff.2 ⟨rest, hnext⟩

/-- Once a request was written, its response is waited for while the connection is there. -/
theorem Ready.asked (h : Ready config past m) (hc : m.session.command = some c)
    (hconnected : m.host.phaseOf c.socket = .connected) :
    ∃ what, c.exchange = some what ∧
      Underway (some config.maxResponseSize) past m.session c what ∧
      IsAsked (some config.maxResponseSize) past c := by
  have hopen := isOpen_of_permits (e := .received []) hconnected
  obtain ⟨what, hwhat, hunderway⟩ := h.underway hc hopen
  refine ⟨what, hwhat, hunderway, hunderway.state.resolve_left fun hqueued ↦ ?_⟩
  cases ((h.kept.phases _).trans hconnected).symm.trans hqueued.phase

/-- While the response is incomplete, it is waited for. -/
theorem Ready.await (h : Ready config past m) (hc : m.session.command = some c)
    (hconnected : m.host.phaseOf c.socket = .connected) {bytes : Bytes}
    (hwait : ∀ found, (c.framer.feed bytes).next? ≠ .ok (some found)) :
    Kept config False (.event c.socket (.received bytes) :: past)
      ((moved m c.socket (.received bytes)).putCommand
        ({ c with framer := c.framer.feed bytes }, (moved m c.socket (.received bytes)).host)) := by
  have hserves := h.kept.command c hc
  obtain ⟨what, hwhat, hunderway, hasked⟩ := h.asked hc hconnected
  have hmade := Host.lt_of_role hserves.role
  have hmoved := h.kept.recorded.event (.received bytes) hmade hconnected ?_
  · refine h.kept.putCommand hc rfl (hmoved.congr ⟨rfl, rfl, rfl⟩ fun _ ↦ rfl)
      ⟨hserves.role, hserves.bound, fun what' hwhat' ↦ ?_⟩ (h.attends_event hc _)
      (fun hdue ↦ hdue.elim) (shares_moved m c.socket (.received bytes)).roles fun _ ↦ id
    cases hwhat.symm.trans hwhat'
    refine ⟨?_, ?_, .inr ⟨hasked.pending, ?_, ?_, ?_, ?_⟩⟩
    · rw [isRelayed_event]
      exact hunderway.relay
    · simpa [Entry.dials, Entry.Reports] using hunderway.unreported
    · show (if c.socket = c.socket then _ else _) = _
      rw [if_pos rfl]
      exact hasked.phase
    · simp [Entry.dials, Entry.written, hasked.writes]
    · simp [Entry.dials, Entry.received, hasked.stream, Framer.feed]
    · intro response hfound
      rw [← hserves.bound] at hfound
      obtain ⟨rest, hnext⟩ := Framer.fst_poll_eq_some_iff.1 hfound
      exact hwait _ hnext
  · rintro chunk heq hcompletes
    cases heq
    obtain ⟨-, response, rest, hnext, -⟩ := (hasked.completes_iff hserves.bound bytes).1 hcompletes
    exact hwait _ hnext

/-- The machine once the response is complete: the exchange is over, and its connection closed. -/
def answered (m : Machine) (c : CommandLink) (bytes : Bytes) : Machine :=
  (moved m c.socket (.received bytes)).putCommand
    ({ c with framer := c.framer.reset, exchange := none },
      (moved m c.socket (.received bytes)).host.close c.socket)

/-- An answer closes the socket of the command link only. -/
theorem phaseOf_answered (bytes : Bytes) (k : Nat) : (answered m c bytes).host.phaseOf k =
    if c.socket = k then .closed else m.host.phaseOf k := by
  show ((moved m c.socket (.received bytes)).host.close c.socket).phaseOf k = _
  rw [Host.phaseOf_close]
  split
  · rfl
  · next hne => exact Host.phaseOf_setPhase_of_ne _ hne _

private theorem shares_answered (bytes : Bytes) : Shares m (answered m c bytes) :=
  ⟨rfl, rfl, (Host.retains_close _ _).roles.trans (shares_moved m c.socket (.received bytes)).roles⟩

/-- The response to a relay that was granted is followed by the close of its connection and the
report. -/
theorem Ready.report (h : Ready config past m) (hc : m.session.command = some c) {bytes : Bytes}
    (hcompletes : Completes (some config.maxResponseSize) c.socket bytes past)
    (hunreported : ∀ x ∈ since c.socket past, ¬ x.Reports) :
    Kept config False (.heard (.messageSent 0) (answered m c bytes).session :: .close c.socket ::
      .event c.socket (.received bytes) :: past)
      ((answered m c bytes).note (.heard (.messageSent 0) (answered m c bytes).session)) := by
  have hserves := h.kept.command c hc
  refine h.kept.putCommand hc rfl ?_ ⟨hserves.role, hserves.bound, fun _ hwhat ↦ by cases hwhat⟩
    (fun n hn ↦ ?_) (fun hdue ↦ hdue.elim) (shares_answered bytes).roles fun _ _ ↦ rfl
  · refine h.kept.recorded.report hcompletes hunreported _ ?_ (phaseOf_answered bytes)
    exact ⟨rfl, rfl, (shares_answered bytes).roles⟩
  · exact ((h.attends_event hc _ n hn).cons (isAside_close (h.kept.apart hc hn) _)).cons
      (isAside_heard _ _ _ _)

/-- Any other response is followed by the close of its connection. -/
theorem Ready.finish (h : Ready config past m) (hc : m.session.command = some c)
    (hconnected : m.host.phaseOf c.socket = .connected) {bytes : Bytes}
    (hcompletes : ¬ Completes (some config.maxResponseSize) c.socket bytes past) :
    Kept config False (.close c.socket :: .event c.socket (.received bytes) :: past)
      (answered m c bytes) := by
  have hserves := h.kept.command c hc
  have hmoved := h.kept.recorded.event (.received bytes) (Host.lt_of_role hserves.role) hconnected
    fun chunk heq ↦ (by cases heq; exact hcompletes)
  refine h.kept.putCommand hc rfl ?_ ⟨hserves.role, hserves.bound, fun _ hwhat ↦ by cases hwhat⟩
    (fun n hn ↦ ?_) (fun hdue ↦ hdue.elim) (shares_answered bytes).roles fun _ _ ↦ rfl
  · exact hmoved.close c.socket (shares_of_retains rfl rfl (Host.retains_close _ _))
      (Host.phaseOf_close _ _)
  · exact (h.attends_event hc _ n hn).cons (isAside_close (h.kept.apart hc hn) _)

/-- Once the command socket is closed, no exchange is in flight. -/
theorem Ready.lose (h : Ready config past m) (hc : m.session.command = some c) (code : Int)
    (hopen : m.host.phaseOf c.socket ≠ .closed) :
    Kept config False (.event c.socket (.closed code) :: past)
      ((moved m c.socket (.closed code)).putCommand
        (c.abort.2, (moved m c.socket (.closed code)).host)) := by
  have hserves := h.kept.command c hc
  have hmoved := h.kept.recorded.event (.closed code) (Host.lt_of_role hserves.role) hopen
    fun _ heq ↦ (by cases heq)
  exact h.kept.putCommand hc rfl (hmoved.congr ⟨rfl, rfl, rfl⟩ fun _ ↦ rfl)
    ⟨hserves.role, hserves.bound, fun _ hwhat ↦ by cases hwhat⟩ (h.attends_event hc _)
    (fun hdue ↦ hdue.elim) (shares_moved m c.socket (.closed code)).roles fun _ _ ↦ rfl

/-! ### The notify socket -/

private theorem streamAtWrite_isPrefix (k : Nat) (past : List Entry) :
    streamAtWrite k past <+: stream k past := by
  induction past with
  | nil => exact List.prefix_refl _
  | cons x past ih =>
    rw [streamAtWrite_cons, stream_cons]
    split
    · exact List.prefix_refl _
    · split
      · exact ih.trans (List.prefix_append _ _)
      · exact List.prefix_append _ _

/-- No response goes away. -/
theorem answers_streamAtWrite_le (limit : Option Int) (k : Nat) (past : List Entry) :
    answers limit (streamAtWrite k past) ≤ answers limit (stream k past) := by
  obtain ⟨more, heq⟩ := streamAtWrite_isPrefix k past
  rw [← heq]
  exact answers_le limit _ more

/-- What is recorded of the command link is not changed by what the notify socket brings. -/
theorem Ready.serves_event (h : Ready config past m) (hn : m.session.notify = some n)
    (e : Channel.Event) : ∀ c ∈ m.session.command,
      Serves m.host.roles (some config.maxResponseSize) (.event n.socket e :: past) m.session c :=
  fun c hc ↦ (h.kept.command c hc).cons (isAside_event (h.kept.apart hc hn).symm e past) id
    fun _ hnow ↦ by cases hnow

/-- An event of the notify socket completes no response to a relay. -/
theorem Ready.recorded_event (h : Ready config past m) (hn : m.session.notify = some n)
    (e : Channel.Event) (hpermits : (m.host.phaseOf n.socket).Permits e) :
    Recorded config (.event n.socket e :: past) (moved m n.socket e) := by
  have hattends := h.kept.notify n hn
  apply h.kept.recorded.event e (Host.lt_of_role hattends.role) hpermits
  intro chunk _ hcompletes
  apply hattends.opener _ hcompletes.granted
  rw [h.kept.phases]
  exact isOpen_of_permits hpermits

/-- The first wait is written once the connection is there. -/
theorem Ready.writeWait (h : Ready config past m) (hn : m.session.notify = some n)
    (hconnecting : m.host.phaseOf n.socket = .connecting) {request : Bytes}
    (hrequest : NotifyLink.waitBytes m.session.selfId = .ok request) (waiting : Bool) :
    Rests config (.write n.socket request :: .event n.socket .connected :: past)
      ((moved m n.socket .connected).putNotify ({ n with waiting },
        (moved m n.socket .connected).host.ask (.send n.socket request))) := by
  have hattends := h.kept.notify n hn
  have hroles := (shares_moved m n.socket .connected).roles
  have hphase : phaseIn n.socket past = .connecting := (h.kept.phases _).trans hconnecting
  have hopen := isOpen_of_permits (e := .connected) hconnecting
  obtain ⟨hwrites, hstream⟩ := hattends.fresh hphase
  have hempty : n.framer.buffer = [] := by
    apply hattends.empty
    rw [hphase]
    decide
  have hreads : Reads (some config.maxResponseSize)
      (stream n.socket (.event n.socket .connected :: past)) n.framer [] := by
    have hstill : stream n.socket (.event n.socket .connected :: past) = [] := by
      simp [Entry.dials, Entry.received, hstream]
    have hframer : n.framer = ⟨some config.maxResponseSize, []⟩ := by
      rw [← hattends.bound, ← hempty]
    rw [hstill, hframer]
    exact reads_nil _
  refine (h.recorded_event hn .connected hconnecting).writeWait (h.stands.listening hn hopen) ?_ ?_
    hattends.bound (if_pos rfl) ?_ hreads hrequest h.latestId ?_ waiting
  · rw [hroles]
    exact h.serves_event hn .connected
  · rw [hroles]
    exact hattends.role
  · rw [isRelayed_event]
    apply hattends.opener
    rw [hphase]
    decide
  · exact .inl ⟨by simp [Entry.dials, Entry.written, hwrites], past, rfl⟩

/-- While the server keeps the connection, the reading goes on; where responses came, the next wait
is due. -/
theorem Ready.read (h : Ready config past m) (hn : m.session.notify = some n)
    (hconnected : m.host.phaseOf n.socket = .connected) {bytes : Bytes}
    (hmore : (NotifyLink.drain (n.framer.feed bytes)).2.1 = .more) (waiting : Bool) :
    Kept config ((NotifyLink.drain (n.framer.feed bytes)).1 ≠ [])
      (.event n.socket (.received bytes) :: past)
      ((moved m n.socket (.received bytes)).putNotify
        ({ n with framer := (NotifyLink.drain (n.framer.feed bytes)).2.2, waiting },
          (moved m n.socket (.received bytes)).host)) := by
  have hattends := h.kept.notify n hn
  have hopen := isOpen_of_permits (e := .received bytes) hconnected
  have hphase : phaseIn n.socket past = .connected := (h.kept.phases _).trans hconnected
  have hstill : phaseIn n.socket (.event n.socket (.received bytes) :: past) = .connected := by
    show (if n.socket = n.socket then _ else _) = _
    rw [if_pos rfl]
    exact hphase
  obtain ⟨hwrites, taken, hreads, -⟩ := hattends.reading hphase
  refine h.kept.putNotify rfl ?_ ?_ (fun c hc ↦ (h.serves_event hn _ c hc).congr rfl rfl rfl)
    (fun _ _ ↦ h.latestId) (shares_moved m n.socket (.received bytes)).roles
  · exact (h.recorded_event hn (.received bytes) hconnected).congr ⟨rfl, rfl, rfl⟩ fun _ ↦ rfl
  · refine ⟨hattends.role, (NotifyLink.limit_drain _).trans hattends.bound,
      fun hnot ↦ absurd hstill hnot, fun hnot ↦ ?_, fun _ ↦ ?_, fun _ ↦ ?_⟩
    · cases hstill.symm.trans hnot
    · rw [isRelayed_event]
      apply hattends.opener
      rw [hphase]
      decide
    · have hstream : stream n.socket (.event n.socket (.received bytes) :: past) =
          stream n.socket past ++ bytes := by
        simp [Entry.dials, Entry.received]
      refine ⟨by simp [Entry.dials, Entry.written, hwrites], _, hstream ▸ hreads.feed hmore, ?_⟩
      intro hsome
      have hle := answers_streamAtWrite_le (some config.maxResponseSize) n.socket past
      rw [hreads.answers] at hle
      have hnew := List.length_pos_iff.2 hsome
      rw [List.length_append]
      exact Nat.lt_of_le_of_lt hle (Nat.lt_add_of_pos_right hnew)

/-- Where the server closes the connection, the next one is due. -/
theorem Ready.readLast (h : Ready config past m) (hn : m.session.notify = some n)
    (hconnected : m.host.phaseOf n.socket = .connected) {bytes : Bytes} {framer : Framer}
    (hlimit : framer.limit = n.framer.limit) (hempty : framer.buffer = []) (waiting : Bool) :
    Kept config True (.close n.socket :: .event n.socket (.received bytes) :: past)
      ((moved m n.socket (.received bytes)).putNotify ({ n with framer, waiting },
        (moved m n.socket (.received bytes)).host.close n.socket)) := by
  have hattends := h.kept.notify n hn
  have hopen := isOpen_of_permits (e := .received bytes) hconnected
  have hmoved := h.recorded_event hn (.received bytes) hconnected
  refine h.kept.putNotify rfl ?_ ?_ (fun c hc ↦ ?_) (fun _ _ ↦ h.latestId) ?_
  · exact hmoved.close n.socket (shares_of_retains rfl rfl (Host.retains_close _ _))
      (Host.phaseOf_close _ _)
  · exact attends_of_closed hattends.role (hlimit.trans hattends.bound) hempty (if_pos rfl)
  · exact ((h.serves_event hn _ c hc).cons (isAside_close (h.kept.apart hc hn).symm _) id
      fun _ hnow ↦ by cases hnow).congr rfl rfl rfl
  · exact (Host.retains_close _ _).roles.trans (shares_moved m n.socket (.received bytes)).roles

/-- Once the notify socket is closed, the next connection is due. -/
theorem Ready.drop (h : Ready config past m) (hn : m.session.notify = some n) (code : Int)
    (hopen : m.host.phaseOf n.socket ≠ .closed) :
    Kept config True (.event n.socket (.closed code) :: past)
      ((moved m n.socket (.closed code)).putNotify
        (n.abort, (moved m n.socket (.closed code)).host)) := by
  have hattends := h.kept.notify n hn
  refine h.kept.putNotify rfl ?_ ?_ (fun c hc ↦ (h.serves_event hn _ c hc).congr rfl rfl rfl)
    (fun _ _ ↦ h.latestId) (shares_moved m n.socket (.closed code)).roles
  · exact (h.recorded_event hn (.closed code) hopen).congr ⟨rfl, rfl, rfl⟩ fun _ ↦ rfl
  · refine attends_of_closed hattends.role hattends.bound rfl ?_
    show (if n.socket = n.socket then _ else _) = _
    rw [if_pos rfl]
    rfl

end Record

end Rendezvous
