import Rendezvous.Proofs.Session.Consistency.Runs
import Rendezvous.Proofs.Session.Episode.Reports

/-!
# Every episode is a word

In every run, whatever happens, an observer that only listens hears a word of every episode. The
reports that a call for a connection makes at once are left out: they tell its caller that it was
refused, and may come in the middle of an episode. Out of an episode nothing is heard, unless bytes
come over a link that was never used, and that takes a name that is no string and a network that is
broken.
-/

namespace Rendezvous

/-- Whether a step is a call for a connection. -/
def Step.IsConnect : Step → Prop
  | .call (.connect _ _ _) => True
  | _ => False

instance (s : Step) : Decidable s.IsConnect := by
  unfold Step.IsConnect
  split <;> infer_instance

private theorem Step.IsConnect.exists_eq : {s : Step} → s.IsConnect →
    ∃ server port name, s = .call (.connect server port name)
  | .call (.connect server port name), _ => ⟨server, port, name, rfl⟩

/-- Whether a step brings bytes over a link of a session that is disconnected. -/
def Step.IsStray (m : Machine) : Step → Prop
  | .socket ref (.received _) => m.session.phase = .disconnected ∧ ∃ k ∈ m.find? ref, m.Owns k
  | _ => False

private theorem Step.IsStray.exists_eq {m : Machine} : {s : Step} → s.IsStray m →
    m.session.phase = .disconnected ∧ ∃ ref bytes k, s = .socket ref (.received bytes) ∧
      m.find? ref = some k ∧ m.Owns k
  | .socket ref (.received bytes), h =>
    let ⟨hphase, k, hk, hown⟩ := h
    ⟨hphase, ref, bytes, k, rfl, hk, hown⟩

namespace Machine

/-- What is heard in a run, but in the steps that are calls for a connection. -/
def heardOf (o : Observer) (depth : Nat) : Machine → List Step → List Event
  | _, [] => []
  | m, s :: rest =>
    let after := (m.step o depth s).2
    (if s.IsConnect then [] else heardIn (m.newLines after)) ++ heardOf o depth after rest

/-- Whether the session is not disconnected before any step of a run. -/
def IsAway (o : Observer) (depth : Nat) : Machine → List Step → Prop
  | _, [] => True
  | m, s :: rest => m.session.phase ≠ .disconnected ∧ IsAway o depth (m.step o depth s).2 rest

/-- What an observer that only listens hears of a session from now on follows the grammar. -/
structure IsGrammatical (depth : Nat) (m : Machine) : Prop where
  /-- A call for a connection reports a failure just where it answers that it failed. -/
  connect : ∀ server port name,
    let out := m.step .silent depth (.call (.connect server port name))
    heardIn (m.newLines out.2) =
      if out.1 = .answer (some false) then [.connectionFailure] else []
  /-- A connection that is granted is the beginning of an episode. -/
  granted : ∀ server port name,
    let out := m.step .silent depth (.call (.connect server port name))
    out.1 = .answer (some true) →
      m.session.phase = .disconnected ∧ out.2.session.phase ≠ .disconnected
  /-- Out of an episode nothing else is reported, but where bytes come over a link never used. -/
  idle : ∀ s : Step, ¬ s.IsConnect → ¬ s.IsStray m → m.session.phase = .disconnected →
    heardIn (m.newLines (m.step .silent depth s).2) = []
  /-- An episode that is over is a word, and one that is under way or was closed is the beginning of
  one. -/
  episode : ∀ server port name steps,
    let out := m.step .silent depth (.call (.connect server port name))
    let last := run .silent depth out.2 steps
    let heard := heardOf .silent depth out.2 steps
    out.1 = .answer (some true) → out.2.IsAway .silent depth steps →
      (last.session.phase = .disconnected → steps.getLast? ≠ some (.call .close) →
        Event.IsWord heard) ∧
      (last.session.phase ≠ .disconnected ∨ steps.getLast? = some (.call .close) →
        Event.IsOpenWord heard)

open SessionM

variable {plain : Prop} {m m' : Machine} {st : Stage} {heard : List Event}

/-- What is added stands in the new lines. -/
theorem Adds.heardIn_newLines (h : m.Adds heard m') : heardIn (m.newLines m') = heard := by
  obtain ⟨-, new, hlog, rfl⟩ := h
  simp [newLines, hlog]

/-- A call for a connection is granted out of an episode only. -/
theorem connect_cases (depth : Nat) (hobserved : m.observed = true) (hat : m.session.IsAt plain st)
    (server : Option String) (port : Option Int) (name : Option Text.Raw)
    (hplain : plain → (Call.connect server port name).IsPlain) :
    let out := m.step .silent depth (.call (.connect server port name))
    (out.1 = .answer (some true) ∧ st = .idle ∧ m.Adds [] out.2 ∧
        out.2.session.IsAt plain .opening) ∨
      (out.1 = .answer (some false) ∧ m.Adds [.connectionFailure] out.2 ∧
        out.2.session.IsAt plain st) ∨
      ((∃ f, out.1 = .fault f) ∧ m.Adds [] out.2 ∧ out.2.session.IsAt plain st) := by
  have hreact : Ensures (react (Observer.silent.tell depth) (.call (.connect server port name))) m
      (fun reply after ↦ (reply = .answer (some true) ∧ st = .idle ∧ m.Adds [] after ∧
          after.session.IsAt plain .opening) ∨
        (reply = .answer (some false) ∧ m.Adds [.connectionFailure] after ∧
          after.session.IsAt plain st))
      fun after ↦ m.Adds [] after ∧ after.session.IsAt plain st := by
    simp only [react, perform, ensures_bind, ensures_map, ensures_pure]
    apply (adds_connect (listens_silent depth) hobserved hat server port name hplain).mono _
      fun _ ↦ id
    intro granted after hafter
    cases granted with
    | true => exact .inl ⟨rfl, hafter.1 rfl⟩
    | false => exact .inr ⟨rfl, hafter.2 rfl⟩
  rcases hreact.runWith_cases with (hgranted | hrefused) | hfault
  · exact .inl hgranted
  · exact .inr (.inl hrefused)
  · exact .inr (.inr hfault)

private theorem moves_perform (hobserved : m.observed = true) (hat : m.session.IsAt plain st)
    {c : Call}
    {tell : Event → SessionM Unit} (htell : Listens tell) (hconnect : ¬ (Step.call c).IsConnect)
    (hclose : c ≠ .close) :
    Ensures (perform tell c) m (fun _ ↦ m.Moves plain st) (m.Moves plain st) := by
  cases c with
  | connect server port name => exact absurd trivial hconnect
  | send peer text => exact ensures_map.2 (moves_sendTo htell hobserved hat peer _)
  | sendBytes peer payload => exact ensures_map.2 (moves_sendTo htell hobserved hat peer _)
  | hangUp peer => exact ensures_map.2 (moves_sendTo htell hobserved hat peer _)
  | signOut => exact ensures_map.2 (moves_signOut htell hobserved hat)
  | close => exact absurd rfl hclose

/-- Every other step moves the monitor along, unless it is stray or the owner closes the session. -/
theorem moves_step (depth : Nat) (hobserved : m.observed = true) (hat : m.session.IsAt plain st)
    {s : Step} (hconnect : ¬ s.IsConnect) (hclose : s ≠ .call .close) (hstray : ¬ s.IsStray m) :
    m.Moves plain st (m.step .silent depth s).2 := by
  have htell := listens_silent depth
  have hgrant (f : Policy → Policy) : m.Moves plain st (m.grant f) :=
    Adds.moves (.of_asks (.refl _) rfl) rfl hat
  have hreact : Ensures (react (Observer.silent.tell depth) s) m (fun _ ↦ m.Moves plain st)
      (m.Moves plain st) := by
    cases s with
    | call c =>
      simp only [react, ensures_bind, ensures_pure]
      exact moves_perform hobserved hat htell hconnect fun heq ↦ hclose (congrArg _ heq)
    | observe =>
      simp only [react, ensures_bind, ensures_get, ensures_ite, ensures_throw, ensures_modify,
        ensures_pure]
      exact ⟨fun _ ↦ .refl hat, fun hnot ↦ absurd hobserved hnot⟩
    | answer ip =>
      simp only [react, ensures_bind, ensures_get, ensures_ite, ensures_pure]
      exact ⟨fun _ ↦ moves_onLookup htell hobserved hat ip, fun _ ↦ .refl hat⟩
    | lateAnswer ip =>
      simp only [react, ensures_bind, ensures_pure]
      exact moves_onAnswer htell hobserved hat ip
    | fire timer =>
      simp only [react, ensures_bind, ensures_get, ensures_ite, ensures_pure]
      exact ⟨fun _ ↦ moves_onTimer htell hobserved hat timer, fun _ ↦ .refl hat⟩
    | socket ref event =>
      simp only [react, ensures_bind, ensures_get]
      cases hk : m.find? ref with
      | none => exact ensures_pure.2 (.refl hat)
      | some k =>
        simp only [ensures_bind, ensures_pure]
        refine moves_onSocket htell hobserved hat fun hphase hown bytes hbytes ↦ ?_
        subst hbytes
        exact hstray ⟨hphase, k, hk, hown⟩
    | accept role granted =>
      simp only [react, ensures_bind, ensures_modify, ensures_pure]
      exact hgrant _
    | sendable role granted =>
      simp only [react, ensures_bind, ensures_modify, ensures_pure]
      exact hgrant _
    | resolvable granted =>
      simp only [react, ensures_bind, ensures_modify, ensures_pure]
      exact hgrant _
  exact hreact.runWith

/-- Closing is heard by nobody. -/
theorem adds_close (plain : Prop) (m : Machine) (depth : Nat) :
    m.Adds [] (m.step .silent depth (.call .close)).2 ∧
      (m.step .silent depth (.call .close)).2.session.IsAt plain .idle := by
  have hreset : m.Adds [] m.reset ∧ m.reset.session.IsAt plain .idle :=
    ⟨.of_asks m.asks_reset m.observed_reset, m.isReset_reset.isAt⟩
  have hreact : Ensures (react (Observer.silent.tell depth) (.call .close)) m
      (fun _ after ↦ m.Adds [] after ∧ after.session.IsAt plain .idle)
      (fun after ↦ m.Adds [] after ∧ after.session.IsAt plain .idle) := by
    simp only [react, perform, ensures_bind, ensures_modify, ensures_pure]
    exact hreset
  exact hreact.runWith

/-- Within an episode, a call for a connection changes nothing. -/
theorem isAt_connect (depth : Nat) (hobserved : m.observed = true) (hat : m.session.IsAt plain st)
    (hbusy : m.session.phase ≠ .disconnected) {s : Step} (hconnect : s.IsConnect)
    (hplain : plain → s.IsPlain) :
    (m.step .silent depth s).2.observed = true ∧
      (m.step .silent depth s).2.session.IsAt plain st := by
  obtain ⟨server, port, name, rfl⟩ := hconnect.exists_eq
  rcases connect_cases depth hobserved hat server port name hplain with
    ⟨-, hidle, -⟩ | ⟨-, hadds, hnext⟩ | ⟨-, hadds, hnext⟩
  · exact absurd (hat.eq_idle_iff.1 hidle) hbusy
  · exact ⟨hadds.observed.trans hobserved, hnext⟩
  · exact ⟨hadds.observed.trans hobserved, hnext⟩

/-! ### Bytes over links that were never used -/

/-- The session is out of an episode. -/
def IsOut (plain : Prop) (m : Machine) : Prop :=
  m.observed = true ∧ m.session.IsAt plain .idle

/-- A session that is disconnected has no use for a signal. -/
theorem ensures_react_of_disconnected {tell : Event → SessionM Unit} {signal : Signal}
    {Q : Unit → Machine → Prop} {E : Machine → Prop} (hphase : m.session.phase = .disconnected)
    (h : Q ⟨⟩ m) : Ensures (SessionM.react tell signal) m Q E := by
  rw [SessionM.react, ensures_bind, ensures_phase, hphase]
  cases signal <;> exact ensures_pure.2 h

private theorem isOut_fail (depth : Nat) (hobserved : m.observed = true) :
    Ensures (fail (Observer.silent.tell depth)) m (fun _ ↦ IsOut plain) (IsOut plain) :=
  (adds_fail plain (listens_silent depth) hobserved).mono
    (fun _ _ h ↦ ⟨h.1.observed.trans hobserved, h.2⟩) fun _ ↦ id

private theorem isOut_onCommand (depth : Nat) (h : m.IsOut plain) (bytes : Bytes) :
    Ensures (onCommand (Observer.silent.tell depth) (.received bytes)) m (fun _ ↦ IsOut plain)
      (IsOut plain) := by
  rw [onCommand, ensures_bind, ensures_withCommand]
  refine ⟨fun _ ↦ ensures_pure.2 h, fun link hlink ↦ ?_⟩
  have hkept : IsOut plain (m.putCommand (link.receive bytes m.host).2) := by
    refine ⟨h.1, isAt_putCommand h.2 hlink ?_⟩
    obtain ⟨-, ⟨-, hsame, -⟩ | ⟨-, hover, -⟩⟩ := link.receive_cases bytes m.host
    · exact .inl hsame
    · exact .inr hover
  cases (link.receive bytes m.host).1 with
  | error e => exact isOut_fail depth hkept.1
  | ok found =>
    cases found with
    | none => exact ensures_pure.2 hkept
    | some found => exact ensures_react_of_disconnected hkept.2.phase hkept

private theorem isOut_onNotify (depth : Nat) (h : m.IsOut plain) (bytes : Bytes) :
    Ensures (onNotify (Observer.silent.tell depth) (.received bytes)) m (fun _ ↦ IsOut plain)
      (IsOut plain) := by
  have hdeliver (m' : Machine) (h' : m'.IsOut plain) (responses : List Wire.Response) :
      Ensures (do
        if (← deliverAll (Observer.silent.tell depth) responses) && !responses.isEmpty then
          rearmWait (Observer.silent.tell depth)) m' (fun _ ↦ IsOut plain) (IsOut plain) := by
    cases responses with
    | nil => simpa [deliverAll] using h'
    | cons response rest =>
      simp only [deliverAll, ensures_bind]
      apply ensures_react_of_disconnected h'.2.phase
      simpa [ensures_ite, h'.2.phase] using h'
  rw [onNotify, ensures_bind, ensures_withNotify]
  refine ⟨fun _ ↦ hdeliver m h [], fun link hlink ↦ ?_⟩
  have hkept (after : NotifyLink × Host Note) : IsOut plain (m.putNotify after) :=
    ⟨h.1, isAt_putNotify h.2 hlink after⟩
  obtain ⟨responses, outcome, after⟩ := link.receive bytes m.host
  cases outcome with
  | failed error => exact isOut_fail depth h.1
  | more => exact hdeliver _ (hkept after) responses
  | closing => exact hdeliver _ (hkept after) responses

/-- They may end the session once more, and nothing else comes of them. -/
theorem isOut_stray (depth : Nat) (h : m.IsOut plain) {s : Step} (hstray : s.IsStray m) :
    (m.step .silent depth s).2.IsOut plain := by
  obtain ⟨-, ref, bytes, k, rfl, hk, -⟩ := hstray.exists_eq
  have hreact : Ensures (react (Observer.silent.tell depth) (.socket ref (.received bytes))) m
      (fun _ ↦ IsOut plain) (IsOut plain) := by
    simp only [react, ensures_bind, ensures_get, hk, onSocket, ensures_modify, ensures_ite,
      ensures_pure]
    refine ⟨fun _ ↦ isOut_onCommand depth ?_ bytes,
      fun _ ↦ ⟨fun _ ↦ isOut_onNotify depth ?_ bytes, fun _ ↦ ?_⟩⟩
    all_goals exact ⟨h.1, h.2⟩
  exact hreact.runWith

/-- Whatever a step is, the session is somewhere in an episode, or in none, after it. -/
theorem exists_isAt_step (depth : Nat) (hobserved : m.observed = true)
    (hat : m.session.IsAt plain st) {s : Step} (hplain : plain → s.IsPlain) :
    (m.step .silent depth s).2.observed = true ∧
      ∃ next, (m.step .silent depth s).2.session.IsAt plain next := by
  by_cases hconnect : s.IsConnect
  · obtain ⟨server, port, name, rfl⟩ := hconnect.exists_eq
    rcases connect_cases depth hobserved hat server port name hplain with
      ⟨-, -, hadds, hnext⟩ | ⟨-, hadds, hnext⟩ | ⟨-, hadds, hnext⟩
    · exact ⟨hadds.observed.trans hobserved, .opening, hnext⟩
    · exact ⟨hadds.observed.trans hobserved, st, hnext⟩
    · exact ⟨hadds.observed.trans hobserved, st, hnext⟩
  · by_cases hclose : s = .call .close
    · subst hclose
      obtain ⟨hadds, hidle⟩ := m.adds_close plain depth
      exact ⟨hadds.observed.trans hobserved, _, hidle⟩
    · by_cases hstray : s.IsStray m
      · cases hat.eq_idle_iff.2 hstray.exists_eq.1
        obtain ⟨hobserved', hidle⟩ := isOut_stray depth ⟨hobserved, hat⟩ hstray
        exact ⟨hobserved', _, hidle⟩
      · obtain ⟨heard, next, hadds, -, hnext⟩ :=
          moves_step depth hobserved hat hconnect hclose hstray
        exact ⟨hadds.observed.trans hobserved, next, hnext⟩

private theorem exists_isAt_run (depth : Nat) (hobserved : m.observed = true)
    (hat : m.session.IsAt plain st) {steps : List Step} (hplain : plain → ∀ s ∈ steps, s.IsPlain) :
    (run .silent depth m steps).observed = true ∧
      ∃ next, (run .silent depth m steps).session.IsAt plain next := by
  induction steps generalizing m st with
  | nil => exact ⟨hobserved, st, hat⟩
  | cons s rest ih =>
    obtain ⟨hobserved', next, hnext⟩ := exists_isAt_step depth hobserved hat fun h' ↦
      hplain h' s List.mem_cons_self
    exact ih hobserved' hnext fun h' s hs ↦ hplain h' s (List.mem_cons_of_mem _ hs)

private theorem getLast?_cons_ne {s : Step} (hclose : s ≠ .call .close) (rest : List Step) :
    (s :: rest).getLast? = some (.call .close) ↔ rest.getLast? = some (.call .close) := by
  cases rest with
  | nil => simp [hclose]
  | cons next rest => rw [List.getLast?_cons_cons]

/-- The monitor goes with an episode from step to step. It comes to its end where the session is
disconnected, unless its owner closed the session. -/
theorem run_heardOf (depth : Nat) (hobserved : m.observed = true) (hat : m.session.IsAt plain st)
    {steps : List Step} (haway : m.IsAway .silent depth steps)
    (hplain : plain → ∀ s ∈ steps, s.IsPlain) :
    ∃ next, st.run (heardOf .silent depth m steps) = some next ∧ next ≠ .listing ∧
      (next = .idle ↔ (run .silent depth m steps).session.phase = .disconnected ∧
        steps.getLast? ≠ some (.call .close)) := by
  induction steps generalizing m st with
  | nil =>
    refine ⟨st, rfl, hat.ne_listing, ?_⟩
    constructor
    · intro hidle
      exact ⟨hat.eq_idle_iff.1 hidle, by simp⟩
    · intro hover
      exact hat.eq_idle_iff.2 hover.1
  | cons s rest ih =>
    obtain ⟨hbusy, haway⟩ := haway
    have hrest (h' : plain) : ∀ s ∈ rest, s.IsPlain :=
      fun s hs ↦ hplain h' s (List.mem_cons_of_mem _ hs)
    rw [heardOf]
    by_cases hclose : s = .call .close
    · subst hclose
      obtain ⟨hadds, hidle⟩ := m.adds_close plain depth
      cases rest with
      | cons next rest => exact absurd hidle.phase haway.1
      | nil =>
        have hconnect : ¬ (Step.call .close).IsConnect := id
        refine ⟨st, ?_, hat.ne_listing, iff_of_false (mt hat.eq_idle_iff.1 hbusy) ?_⟩
        · rw [if_neg hconnect, hadds.heardIn_newLines]
          rfl
        · intro hover
          exact hover.2 rfl
    · rw [ne_eq, getLast?_cons_ne hclose]
      by_cases hconnect : s.IsConnect
      · obtain ⟨hobserved', hat'⟩ := isAt_connect depth hobserved hat hbusy hconnect
          fun h' ↦ hplain h' s List.mem_cons_self
        rw [if_pos hconnect]
        exact ih hobserved' hat' haway hrest
      · have hstray : ¬ s.IsStray m := fun hstray ↦ hbusy hstray.exists_eq.1
        obtain ⟨heard, next, hadds, hrun, hnext⟩ :=
          moves_step depth hobserved hat hconnect hclose hstray
        obtain ⟨final, hlast, hfinal⟩ := ih (hadds.observed.trans hobserved) hnext haway hrest
        refine ⟨final, ?_, hfinal⟩
        rw [if_neg hconnect, hadds.heardIn_newLines, Stage.run_append, hrun]
        exact hlast

private theorem isGrammatical_of_isAt (depth : Nat) (hobserved : m.observed = true)
    (hat : m.session.IsAt False st) : m.IsGrammatical depth where
  connect server port name := by
    intro out
    rcases connect_cases depth hobserved hat server port name False.elim with
      ⟨hreply, -, hadds, -⟩ | ⟨hreply, hadds, -⟩ | ⟨⟨f, hreply⟩, hadds, -⟩
    · rw [hadds.heardIn_newLines, if_neg]
      intro hrefused
      cases hrefused.symm.trans hreply
    · rw [hadds.heardIn_newLines, if_pos hreply]
    · rw [hadds.heardIn_newLines, if_neg]
      intro hrefused
      cases hrefused.symm.trans hreply
  granted server port name := by
    intro out hgranted
    rcases connect_cases depth hobserved hat server port name False.elim with
      ⟨-, hidle, -, hopening⟩ | ⟨hreply, -⟩ | ⟨⟨f, hreply⟩, -⟩
    · exact ⟨hat.eq_idle_iff.1 hidle, hopening.1⟩
    · cases hgranted.symm.trans hreply
    · cases hgranted.symm.trans hreply
  idle s hconnect hstray hphase := by
    cases hat.eq_idle_iff.2 hphase
    by_cases hclose : s = .call .close
    · subst hclose
      exact (m.adds_close False depth).1.heardIn_newLines
    · obtain ⟨heard, next, hadds, hrun, -⟩ :=
        moves_step depth hobserved hat hconnect hclose hstray
      rw [hadds.heardIn_newLines]
      exact (Stage.eq_nil_of_run_idle hrun).1
  episode server port name steps := by
    intro out last heard hgranted haway
    rcases connect_cases depth hobserved hat server port name False.elim with
      ⟨-, -, hadds, hopening⟩ | ⟨hreply, -⟩ | ⟨⟨f, hreply⟩, -⟩
    · obtain ⟨next, hrun, hlisting, hidle⟩ :=
        run_heardOf depth (hadds.observed.trans hobserved) hopening haway False.elim
      rcases Stage.run_opening hrun with hl | ⟨hend, hword⟩ | ⟨hgoing, hopen⟩
      · exact absurd hl hlisting
      · obtain ⟨hphase, hlast⟩ := hidle.1 hend
        constructor
        · intro _ _
          exact hword
        · intro hgoing
          exact hgoing.elim (absurd hphase) (absurd · hlast)
      · constructor
        · intro hphase hlast
          exact absurd (hidle.2 ⟨hphase, hlast⟩) hgoing
        · intro _
          exact hopen
    · cases hgranted.symm.trans hreply
    · cases hgranted.symm.trans hreply

/-- Where every name is a string, no step can be stray. -/
theorem not_isStray_of_plain (hat : m.session.IsAt plain st) (hplain : plain) (s : Step) :
    ¬ s.IsStray m := by
  intro hstray
  obtain ⟨hphase, -, -, k, -, -, hown⟩ := hstray.exists_eq
  cases hat.eq_idle_iff.2 hphase
  obtain ⟨hcommand, hnotify⟩ := hat.absent hplain
  simp [Owns, hcommand, hnotify] at hown

/-- A network that works brings no bytes to a session that is disconnected. -/
theorem Stands.not_isStray {config : Config} (h : m.Stands config plain .none) {s : Step}
    (hs : s.IsLawful m) : ¬ s.IsStray m := by
  intro hstray
  obtain ⟨hphase, ref, bytes, k, rfl, hk, -⟩ := hstray.exists_eq
  have hpermits := hs k hk
  rw [(h.isOver hphase).2.2 k] at hpermits
  cases hpermits

/-- In every run, what an observer that only listens hears from then on follows the grammar. No step
is stray where every name is a string, or where the network works. -/
theorem isGrammatical_run (config : Config) (policy : Policy) (depth : Nat) (steps : List Step) :
    let start := fresh config true policy
    let last := run .silent depth start steps
    last.IsGrammatical depth ∧
      ∀ s : Step, s.IsStray last →
        (∃ s ∈ steps, ¬ s.IsPlain) ∧ ¬ start.IsLawful .silent depth (steps ++ [s]) := by
  intro start last
  have hfresh (plain : Prop) : start.session.IsAt plain .idle :=
    Session.IsReset.isAt ⟨⟨rfl, rfl, rfl, rfl, rfl, rfl⟩, rfl, rfl⟩
  constructor
  · obtain ⟨hobserved, st, hat⟩ := exists_isAt_run depth rfl (hfresh False) False.elim
    exact isGrammatical_of_isAt depth hobserved hat
  · intro s hstray
    constructor
    · by_cases hplain : ∀ s ∈ steps, s.IsPlain
      · obtain ⟨-, st, hat⟩ := exists_isAt_run depth rfl (hfresh True) fun _ ↦ hplain
        exact absurd hstray (not_isStray_of_plain hat trivial s)
      · simpa using hplain
    · intro hlawful
      obtain ⟨hsteps, hs, -⟩ := isLawful_append.1 hlawful
      have hstands := stands_run (isSteady_silent config) False.elim
        (stands_fresh config true policy) hsteps False.elim
      exact hstands.not_isStray hs hstray

/-- A session signs in, hears of a peer, and is refused the long poll. -/
example : heardOf .silent 0 (fresh (Config.standard "alice") true {}) [
    .call (.connect (some "10.0.0.5") none none),
    .socket (.newest .command) .connected,
    .socket (.newest .command) (.received (Bytes.ofAscii
      "HTTP/1.1 200 OK\r\nPragma: 7\r\nContent-Length: 6\r\n\r\na,9,1\n")),
    .socket (.newest .notify) (.closed Channel.refusedCode)] =
    [.peerConnected 9 "a", .signedIn, .disconnected] := by
  decide +kernel

end Machine

end Rendezvous
