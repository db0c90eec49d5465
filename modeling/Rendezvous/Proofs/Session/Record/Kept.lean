import Rendezvous.Proofs.Session.Record.Links

/-!
# What a record says of a session

At every moment the record tells the phases of the sockets and what there is to say of the links.
That every entry is in place when it is added follows from this alone.
-/

namespace Rendezvous

open Wire

namespace Record

variable {x : Entry} {past story : List Entry} {s : Session} {c : CommandLink} {n : NotifyLink}
  {due : Prop}

/-! ### What there is to say of a machine -/

/-- The settings, the observer and the sockets are the same. -/
structure Shares (m m' : Machine) : Prop where
  config : m'.config = m.config
  observed : m'.observed = m.observed
  roles : m'.host.roles = m.host.roles

/-- The links, the name and the id are the same, and the session neither connects nor ends. -/
structure Resembles (s s' : Session) : Prop where
  command : s'.command = s.command
  notify : s'.notify = s.notify
  clientName : s'.clientName = s.clientName
  selfId : s'.selfId = s.selfId
  connected : s'.phase = .connected → s.phase = .connected
  ended : s'.phase = .disconnected → s.phase = .disconnected

/-- A record that is in order tells the phases of the sockets of a machine. -/
structure Recorded (config : Config) (story : List Entry) (m : Machine) : Prop where
  made : m.config = config
  observed : m.observed = true
  order : IsInOrder m.host.roles (some config.maxResponseSize) story
  settled : IsSettled (some config.maxResponseSize) story
  phases : ∀ k, phaseIn k story = m.host.phaseOf k

/-- A record also tells of the links of a session. -/
structure Kept (config : Config) (due : Prop) (story : List Entry) (m : Machine) : Prop
    extends recorded : Recorded config story m where
  command : ∀ c ∈ m.session.command,
    Serves m.host.roles (some config.maxResponseSize) story m.session c
  notify : ∀ n ∈ m.session.notify,
    Attends m.host.roles (some config.maxResponseSize) due story n
  named : due → m.session.phase = .connected → latestId story = some m.session.selfId
  ended : m.session.phase = .disconnected → m.session.exchange? = none

variable {config : Config} {m m' : Machine}

private theorem Shares.refl (m : Machine) : Shares m m := ⟨rfl, rfl, rfl⟩

/-- A session resembles itself. -/
theorem Resembles.refl (s : Session) : Resembles s s := ⟨rfl, rfl, rfl, rfl, id, id⟩

private theorem Recorded.cons (h : Recorded config story m)
    (hx : InPlace m.host.roles (some config.maxResponseSize) x story)
    (hsettled : IsSettled (some config.maxResponseSize) (x :: story)) (hshares : Shares m m')
    (hphases : ∀ k, m'.host.phaseOf k = x.moves k (m.host.phaseOf k)) :
    Recorded config (x :: story) m' where
  made := hshares.config.trans h.made
  observed := hshares.observed.trans h.observed
  order := by
    rw [hshares.roles]
    exact ⟨hx, h.order⟩
  settled := hsettled
  phases k := by rw [phaseIn_cons, h.phases, hphases]

/-- What is recorded depends on the settings, the sockets and their phases only. -/
theorem Recorded.congr (h : Recorded config story m) (hshares : Shares m m')
    (hphases : ∀ k, m'.host.phaseOf k = m.host.phaseOf k) : Recorded config story m' where
  made := hshares.config.trans h.made
  observed := hshares.observed.trans h.observed
  order := by
    rw [hshares.roles]
    exact h.order
  settled := h.settled
  phases k := (h.phases k).trans (hphases k).symm

/-- An entry that no rule is about is recorded. -/
theorem Recorded.neutral (h : Recorded config story m) (hx : x.IsNeutral)
    (hshares : Shares m m') (hphases : ∀ k, m'.host.phaseOf k = m.host.phaseOf k) :
    Recorded config (x :: story) m' := by
  apply h.cons (h.settled.inPlace hx.isFree) (h.settled.cons_of_isNeutral hx) hshares
  intro k
  rw [hphases, (isAside_of_isNeutral hx k story).moves]

/-- Sockets that are new change nothing of what was recorded. -/
theorem Recorded.extend (h : Recorded config story m) (hconfig : m'.config = m.config)
    (hobserved : m'.observed = m.observed) (hroles : m.host.roles <+: m'.host.roles)
    (hphases : ∀ k, m'.host.phaseOf k = m.host.phaseOf k) : Recorded config story m' where
  made := hconfig.trans h.made
  observed := hobserved.trans h.observed
  order := h.order.mono hroles
  settled := h.settled
  phases k := (h.phases k).trans (hphases k).symm

/-- A close is in place where nothing else has to come. -/
theorem Recorded.close (h : Recorded config story m) (k : Nat) (hshares : Shares m m')
    (hphases : ∀ j, m'.host.phaseOf j = if k = j then .closed else m.host.phaseOf j) :
    Recorded config (.close k :: story) m' := by
  refine h.cons (x := .close k) (inPlace_close (h.settled _)) ?_ hshares hphases
  exact h.settled.cons (fun _ _ heq ↦ by cases heq) fun _ _ heq ↦ by cases heq

/-- The machine once a socket has come to the phase that an event finds it in. -/
def moved (m : Machine) (k : Nat) (e : Channel.Event) : Machine :=
  { m with host := m.host.setPhase k ((m.host.phaseOf k).after e) }

private theorem phaseOf_moved {k : Nat} (hmade : k < m.host.sockets.length) (e : Channel.Event)
    (j : Nat) :
    (moved m k e).host.phaseOf j =
      if k = j then (m.host.phaseOf j).after e else m.host.phaseOf j := by
  split
  · next hk =>
    subst hk
    exact Host.phaseOf_setPhase hmade _
  · next hne => exact Host.phaseOf_setPhase_of_ne _ hne _

/-- An event at a socket changes its phase only. -/
theorem shares_moved (m : Machine) (k : Nat) (e : Channel.Event) : Shares m (moved m k e) :=
  ⟨rfl, rfl, (Host.retains_setPhase _ _ _).roles⟩

/-- An event that a working network reports is in place where nothing else has to come. -/
theorem Recorded.event (h : Recorded config story m) {k : Nat} (e : Channel.Event)
    (hmade : k < m.host.sockets.length) (hpermits : (m.host.phaseOf k).Permits e)
    (hcompletes : ∀ chunk, e = .received chunk →
      ¬ Completes (some config.maxResponseSize) k chunk story) :
    Recorded config (.event k e :: story) (moved m k e) := by
  rw [← h.phases] at hpermits
  refine h.cons (x := .event k e) (inPlace_event hpermits (h.settled _)) ?_ (shares_moved m k e)
    (phaseOf_moved hmade e)
  apply h.settled.cons
  · intro j chunk heq
    cases heq
    exact hcompletes chunk rfl
  · intro j bytes heq
    cases heq

/-- A dial is in place where the socket is closed. -/
theorem Recorded.dial (h : Recorded config story m) {k : Nat} (address : Address)
    (hclosed : m.host.phaseOf k = .closed) (hshares : Shares m m')
    (hphases : ∀ j, m'.host.phaseOf j = if k = j then .connecting else m.host.phaseOf j) :
    Recorded config (.dial k address :: story) m' := by
  rw [← h.phases] at hclosed
  refine h.cons (x := .dial k address) (inPlace_dial hclosed (h.settled _)) ?_ hshares hphases
  exact h.settled.cons (fun _ _ heq ↦ by cases heq) fun _ _ heq ↦ by cases heq

/-- A write is in place where the step ends with it. -/
theorem Recorded.write (h : Recorded config story m) {k : Nat} {bytes : Bytes}
    (hwrite : m.host.roles[k]? = some .command ∧ IsCommandWrite k bytes story ∨
      m.host.roles[k]? = some .notify ∧
        IsNotifyWrite (some config.maxResponseSize) k bytes story)
    {s : Session}
    (hwait : m.host.roles[k]? = some .notify → NotifyLink.waitBytes s.selfId = .ok bytes)
    (hshares : Shares m m') (hphases : ∀ k, m'.host.phaseOf k = m.host.phaseOf k) :
    Recorded config (.rest s :: .write k bytes :: story) m' where
  made := hshares.config.trans h.made
  observed := hshares.observed.trans h.observed
  order := by
    rw [hshares.roles]
    exact ⟨inPlace_rest hwait, inPlace_write hwrite (h.settled _), h.order⟩
  settled x := ⟨fun _ _ _ heq ↦ (by cases heq), fun _ _ _ heq ↦ (by cases heq),
    fun _ _ _ heq ↦ (by cases heq)⟩
  phases j := (h.phases j).trans (hphases j).symm

/-- A report is in place where the response to a relay was completed and the connection closed. -/
theorem Recorded.report (h : Recorded config story m) {k : Nat} {chunk : Bytes}
    (hcompletes : Completes (some config.maxResponseSize) k chunk story)
    (hunreported : ∀ x ∈ since k story, ¬ x.Reports) (s : Session) (hshares : Shares m m')
    (hphases : ∀ j, m'.host.phaseOf j = if k = j then .closed else m.host.phaseOf j) :
    Recorded config
      (.heard (.messageSent 0) s :: .close k :: .event k (.received chunk) :: story) m' where
  made := hshares.config.trans h.made
  observed := hshares.observed.trans h.observed
  order := by
    rw [hshares.roles]
    refine ⟨inPlace_report ⟨rfl, k, chunk, story, rfl, hcompletes, hunreported⟩ ?_,
      inPlace_close ?_, inPlace_event hcompletes.connected (h.settled _), h.order⟩
    · exact ⟨fun _ _ _ heq ↦ (by cases heq), fun _ _ _ _ _ ↦ ⟨s, rfl⟩,
        fun _ _ _ heq ↦ (by cases heq)⟩
    · refine ⟨?_, fun _ _ _ heq ↦ (by cases heq), fun _ _ _ heq ↦ (by cases heq)⟩
      intro j _ _ heq _
      cases heq
      rfl
  settled x := ⟨fun _ _ _ heq ↦ (by cases heq), fun _ _ _ heq ↦ (by cases heq),
    fun _ _ _ heq ↦ (by cases heq)⟩
  phases j := by
    rw [hphases]
    show (if k = j then Channel.Phase.closed else
      if k = j then (phaseIn j story).after (.received chunk) else phaseIn j story) = _
    rw [h.phases]
    split <;> rfl

/-- A call and its answer are recorded. -/
theorem Recorded.called (h : Recorded config story m) (call : Call) (answer : Option Bool)
    (hshares : Shares m m') (hphases : ∀ k, m'.host.phaseOf k = m.host.phaseOf k) :
    Recorded config (.called call answer :: story) m' := by
  refine h.cons (x := .called call answer) (h.settled.inPlace trivial) ?_ hshares hphases
  exact h.settled.cons (fun _ _ heq ↦ by cases heq) fun _ _ heq ↦ by cases heq

/-- An entry that no rule is about leaves everything kept. -/
theorem Kept.neutral (h : Kept config due story m) (hx : x.IsNeutral)
    (hnow : ∀ now ∈ x.session?, now = m.session) : Kept config due (x :: story) m where
  recorded := h.recorded.neutral hx (.refl m) fun _ ↦ rfl
  command c hc := (h.command c hc).cons (isAside_of_isNeutral hx _ _) hx.not_reports hnow
  notify n hn := (h.notify n hn).cons (isAside_of_isNeutral hx _ _)
  named hdue hphase := by
    rw [latestId_cons]
    cases hsession : x.session? with
    | none => exact h.named hdue hphase
    | some now =>
      rw [hnow now hsession]
      rfl
  ended := h.ended

/-- What is kept depends on the links, the name, the id and the phases only. -/
theorem Kept.congr (h : Kept config due story m) (hshares : Shares m m')
    (hphases : ∀ k, m'.host.phaseOf k = m.host.phaseOf k)
    (hsession : Resembles m.session m'.session) : Kept config due story m' where
  recorded := h.recorded.congr hshares hphases
  command c hc := by
    rw [hsession.command] at hc
    rw [hshares.roles]
    exact (h.command c hc).congr hsession.command hsession.clientName hsession.selfId
  notify n hn := by
    rw [hsession.notify] at hn
    rw [hshares.roles]
    exact h.notify n hn
  named hdue hphase := by
    rw [hsession.selfId]
    exact h.named hdue (hsession.connected hphase)
  ended hphase := by
    rw [Session.exchange?, hsession.command]
    exact h.ended (hsession.ended hphase)

/-- Where no exchange is in flight, nothing is recorded of a name or an id. -/
theorem Kept.idle (h : Kept config due story m) (hshares : Shares m m')
    (hphases : ∀ k, m'.host.phaseOf k = m.host.phaseOf k)
    (hcommand : m'.session.command = m.session.command)
    (hnotify : m'.session.notify = m.session.notify)
    (hidle : m.session.exchange? = none) (hnamed : due → m'.session.phase ≠ .connected) :
    Kept config due story m' where
  recorded := h.recorded.congr hshares hphases
  command c hc := by
    rw [hcommand] at hc
    have hserves := h.command c hc
    rw [hshares.roles]
    refine ⟨hserves.role, hserves.bound, fun what hwhat ↦ ?_⟩
    rw [Session.exchange?_of_command hc] at hidle
    cases hidle.symm.trans hwhat
  notify n hn := by
    rw [hnotify] at hn
    rw [hshares.roles]
    exact h.notify n hn
  named hdue hphase := absurd hphase (hnamed hdue)
  ended _ := by
    rw [Session.exchange?, hcommand]
    exact hidle

/-- A wait that is due no more leaves everything kept. -/
theorem Kept.weaken (h : Kept config due story m) {due' : Prop} (hdue : due' → due) :
    Kept config due' story m where
  recorded := h.recorded
  command := h.command
  notify n hn := by
    refine { h.notify n hn with reading := ?_ }
    intro hphase
    obtain ⟨hwrites, taken, hreads, hmore⟩ := (h.notify n hn).reading hphase
    exact ⟨hwrites, taken, hreads, fun hdue' ↦ hmore (hdue hdue')⟩
  named hdue' := h.named (hdue hdue')
  ended := h.ended

/-- A session without links. -/
theorem Recorded.kept (h : Recorded config story m) (hcommand : m.session.command = none)
    (hnotify : m.session.notify = none) (hphase : m.session.phase ≠ .connected) :
    Kept config due story m where
  recorded := h
  command c hc := by cases hcommand.symm.trans hc
  notify n hn := by cases hnotify.symm.trans hn
  named _ hconnected := absurd hconnected hphase
  ended _ := by rw [Session.exchange?, hcommand, Option.bind_none]

/-- The record of a machine at the end of a step. -/
def Rests (config : Config) (story : List Entry) (m : Machine) : Prop :=
  Kept config False (.rest m.session :: story) m

/-- What is kept in the middle of a step rests after it. -/
theorem Kept.rests (h : Kept config due story m) : Rests config story m := by
  have hweak : Kept config False story m := h.weaken False.elim
  refine hweak.neutral (x := .rest m.session) trivial ?_
  intro now hnow
  cases hnow
  rfl

/-! ### In the middle of a step -/

/-- What holds of a machine in the middle of a step and the record as it stands there. -/
structure At (start : Machine) (past : List Entry) (P : List Entry → Machine → Prop)
    (m : Machine) : Prop where
  later : start.host.log.length ≤ m.host.log.length
  holds : P (storyAt start past m) m

variable {start : Machine} {P P' : List Entry → Machine → Prop}

private theorem storyAt_of_line {l : LogEntry Note}
    (hlater : start.host.log.length ≤ m.host.log.length) (hlog : m'.host.log = l :: m.host.log) :
    storyAt start past m' = .line l :: storyAt start past m := by
  have hlength : m.host.log.length + 1 - start.host.log.length =
      m.host.log.length - start.host.log.length + 1 := by omega
  rw [storyAt, storyAt, Machine.newLines, Machine.newLines, hlog, List.length_cons, hlength,
    List.take_succ_cons]
  rfl

/-- Where nothing was logged since the start, the record is as it was. -/
theorem storyAt_self (past : List Entry) (hlog : m.host.log = start.host.log) :
    storyAt start past m = past := by
  simp [storyAt, Machine.newLines, hlog]

/-- What follows from a condition holds where the condition does. -/
theorem At.imp (h : At start past P m) (hnext : ∀ story, P story m → P' story m) :
    At start past P' m := ⟨h.later, hnext _ h.holds⟩

/-- Where the log stays the record does. -/
theorem At.same (h : At start past P m) (hlog : m'.host.log = m.host.log)
    (hnext : ∀ story, P story m → P' story m') : At start past P' m' := by
  have hstory : storyAt start past m' = storyAt start past m := by
    rw [storyAt, storyAt, Machine.newLines, Machine.newLines, hlog]
  exact ⟨hlog ▸ h.later, hstory ▸ hnext _ h.holds⟩

/-- One line more in the log is one entry more in the record. -/
theorem At.line (h : At start past P m) {l : LogEntry Note} (hlog : m'.host.log = l :: m.host.log)
    (hnext : ∀ story, P story m → P' (.line l :: story) m') : At start past P' m' where
  later := by
    have hlater := h.later
    rw [hlog, List.length_cons]
    omega
  holds := by
    rw [storyAt_of_line h.later hlog]
    exact hnext _ h.holds

end Record

end Rendezvous
