import Rendezvous.Headless.Launch
import Rendezvous.Proofs.Config.Layers
import Rendezvous.Proofs.Network.Client
import Rendezvous.Proofs.Session.Episode.Runs

/-!
# A headless run ends with its session

A run goes on until the end of its session is reported, which comes to pass once at most. The
session is disconnected then, so that closing it does nothing any more; nor does anything else
that happens before the command is gone. The exit code tells whether signing in was ever
complete. Settings that cannot be had end the command before anything is asked of the network.
-/

namespace Rendezvous

/-! ### The end among what is heard -/

namespace Event

/-- Whether an event is the end of a session that was asked to connect once. -/
def IsEnd (e : Event) : Prop := e = .disconnected ∨ e = .connectionFailure

instance (e : Event) : Decidable e.IsEnd := inferInstanceAs (Decidable (_ ∨ _))

variable {e : Event} {heard : List Event}

private theorem IsListing.not_isEnd (h : e.IsListing) : ¬ e.IsEnd := by
  rintro (rfl | rfl) <;> exact h

private theorem IsNotice.not_isEnd (h : e.IsNotice) : ¬ e.IsEnd := by
  rintro (rfl | rfl) <;> exact h

/-- An open word has no end in it. -/
theorem IsOpenWord.not_isEnd (h : IsOpenWord heard) : ∀ e ∈ heard, ¬ e.IsEnd := by
  rcases h with rfl | ⟨listed, noticed, hlisted, hnoticed, rfl⟩
  · exact List.forall_mem_nil _
  · intro e he
    rcases List.mem_append.1 he with he | he
    · exact (hlisted e he).not_isEnd
    · rcases List.mem_cons.1 he with rfl | he
      · decide
      · exact (hnoticed e he).not_isEnd

/-- A word has an end in its last place and nowhere else. -/
theorem IsWord.exists_end (h : IsWord heard) :
    ∃ before e, heard = before ++ [e] ∧ e.IsEnd ∧ ∀ x ∈ before, ¬ x.IsEnd := by
  rcases h with rfl | rfl | ⟨listed, noticed, hlisted, hnoticed, rfl⟩
  · exact ⟨[], _, rfl, .inr rfl, List.forall_mem_nil _⟩
  · exact ⟨[], _, rfl, .inl rfl, List.forall_mem_nil _⟩
  · have hopen : IsOpenWord (listed ++ .signedIn :: noticed) :=
      .inr ⟨listed, noticed, hlisted, hnoticed, rfl⟩
    exact ⟨listed ++ .signedIn :: noticed, _, rfl, .inl rfl, hopen.not_isEnd⟩

end Event

namespace Journal

private theorem afterAll_append (j : Journal) (first second : List Event) :
    j.afterAll (first ++ second) = (j.afterAll first).afterAll second :=
  List.foldl_append

/-- A journal knows whether an end was heard. -/
theorem ended_afterAll (j : Journal) (heard : List Event) :
    (j.afterAll heard).ended = true ↔ j.ended = true ∨ ∃ e ∈ heard, e.IsEnd := by
  induction heard generalizing j with
  | nil => simp [afterAll]
  | cons e rest ih =>
    have hrest : (j.afterAll (e :: rest)).ended = ((j.after e).afterAll rest).ended := rfl
    rw [hrest, ih]
    cases e <;> simp [after, Event.IsEnd]

/-- A journal knows whether signing in was ever complete. -/
theorem signedIn_afterAll (j : Journal) (heard : List Event) :
    (j.afterAll heard).signedIn = true ↔ j.signedIn = true ∨ .signedIn ∈ heard := by
  induction heard generalizing j with
  | nil => simp [afterAll]
  | cons e rest ih =>
    have hrest : (j.afterAll (e :: rest)).signedIn = ((j.after e).afterAll rest).signedIn := rfl
    rw [hrest, ih]
    cases e <;> simp [after]

end Journal

namespace Machine

private theorem Adds.heard_eq {m m' : Machine} {heard : List Event} (h : m.Adds heard m') :
    Observer.heard m' = Observer.heard m ++ heard := by
  obtain ⟨-, new, hlog, rfl⟩ := h
  show heardIn m'.host.log = heardIn m.host.log ++ heardIn new
  rw [hlog, heardIn_append]

end Machine

namespace Network.Client

/-- Whatever happens to a session on a network moves the monitor along, unless its owner asks for a
connection or closes the session. -/
theorem moves_step {c : Client} {st : Rendezvous.Stage} (hobserved : c.machine.observed = true)
    (hat : c.machine.session.IsAt True st) {s : Step} (hconnect : ¬ s.IsConnect)
    (hclose : s ≠ .call .close) : c.machine.Moves True st (c.step .silent 0 s).2.2.machine := by
  have hmoves {s : Rendezvous.Step} (hconnect : ¬ s.IsConnect) (hclose : s ≠ .call .close) :=
    Machine.moves_step 0 hobserved hat hconnect hclose (Machine.not_isStray_of_plain hat trivial s)
  cases s with
  | call call =>
    have hother : Rendezvous.Step.call call ≠ .call .close := by
      intro heq
      cases heq
      exact hclose rfl
    have hno : ¬ (Rendezvous.Step.call call).IsConnect := by
      cases call <;> first | exact id | exact absurd trivial hconnect
    exact hmoves hno hother
  | fire t => exact hmoves (s := .fire t) id (by simp)
  | network e =>
    simp only [Client.step]
    cases (c.network.receive e).1.delivery with
    | none => exact .refl hat
    | some d =>
      cases d with
      | socket k event =>
        exact hmoves (s := .socket (.number k) event) id (by simp)
      | answer host answer =>
        exact hmoves (s := .answer answer.ip?) id (by simp)

end Network.Client

namespace Headless.Run

open Network (Client)

variable {config : Config} {st next : Stage} {r : Run} {s : Step} {steps : List Step}
  {signals : Bool}

/-- A run that has done nothing yet. Without a network at hand its session cannot be started. -/
def unstarted (c : Config) (online : Bool) (threshold : Nat) : Run :=
  { client := .fresh c online, threshold }

/-- The run after something that does not break it off; it is over or goes on. -/
def after (signals : Bool) (r : Run) (s : Step) : Run := (r.step? signals s).elim r Prod.snd

/-- The run after all of these, also where it is over before. -/
def through (r : Run) (signals : Bool) (steps : List Step) : Run := steps.foldl (after signals) r

/-- How a run that has come so far ends. -/
def exit (r : Run) : Exit := if r.isOver then .code r.exitCode else .running

/-- The journal of a run tells what its session reported, and that has come to a stage. -/
structure Accords (config : Config) (st : Stage) (r : Run) : Prop where
  held : ∃ w : Client.Watch, w.client = r.client ∧ w.Holds config
  observed : r.client.machine.observed = true
  word : Stage.opening.run (Observer.heard r.client.machine) = some st
  journal : r.journal = Journal.afterAll {} (Observer.heard r.client.machine)

/-- What holds of a run between steps: the session is at the stage that its reports have come
to. -/
structure Tells (config : Config) (st : Stage) (r : Run) : Prop extends Accords config st r where
  stage : r.client.machine.session.IsAt True st

/-! ### Ends by the journal and by the session -/

private theorem Tells.heard_cases (h : r.Tells config st) :
    (st = .idle ∧ ∃ before e, Observer.heard r.client.machine = before ++ [e] ∧ e.IsEnd ∧
      ∀ x ∈ before, ¬ x.IsEnd) ∨
    (st ≠ .idle ∧ ∀ e ∈ Observer.heard r.client.machine, ¬ e.IsEnd) := by
  rcases Stage.run_opening h.word with hlisting | ⟨hidle, hword⟩ | ⟨hgoing, hopen⟩
  · exact absurd hlisting h.stage.ne_listing
  · exact .inl ⟨hidle, hword.exists_end⟩
  · exact .inr ⟨hgoing, hopen.not_isEnd⟩

private theorem Tells.isOver_iff_heard (h : r.Tells config st) :
    r.isOver = true ↔ ∃ e ∈ Observer.heard r.client.machine, e.IsEnd := by
  rw [isOver, h.journal, Journal.ended_afterAll]
  simp

/-- A run is over just where no episode is under way. -/
theorem Tells.isOver_iff (h : r.Tells config st) : r.isOver = true ↔ st = .idle := by
  rw [h.isOver_iff_heard]
  rcases h.heard_cases with ⟨hidle, before, e, heard, hend, -⟩ | ⟨hgoing, hno⟩
  · exact iff_of_true ⟨e, by simp [heard], hend⟩ hidle
  · refine iff_of_false ?_ hgoing
    rintro ⟨e, he, hend⟩
    exact hno e he hend

private theorem Tells.exitCode_eq (h : r.Tells config st) :
    r.exitCode = if .signedIn ∈ Observer.heard r.client.machine then 0 else 1 := by
  have hsigned := Journal.signedIn_afterAll {} (Observer.heard r.client.machine)
  rw [← h.journal] at hsigned
  simp only [exitCode, hsigned, Bool.false_eq_true, false_or]

/-! ### Steps -/

private theorem journal_take {s : Client.Step} {heard : List Event}
    (h : r.client.machine.Adds heard (r.take s).2.client.machine) :
    (r.take s).2.journal = r.journal.afterAll heard := by
  have hjournal : (r.take s).2.journal = r.journal.afterAll
      (heardIn (r.client.machine.newLines (r.take s).2.client.machine)) := rfl
  rw [hjournal, h.heardIn_newLines]

private theorem Accords.held_take (h : r.Accords config st) (s : Client.Step) :
    ∃ w : Client.Watch, w.client = (r.take s).2.client ∧ w.Holds config := by
  obtain ⟨w, hclient, hholds⟩ := h.held
  refine ⟨w.step 0 s, ?_, hholds.step 0 s⟩
  simp only [Client.Watch.step, hclient]
  rfl

/-- What a step reports goes into the journal. -/
theorem Accords.take (h : r.Accords config st) {s : Client.Step} {heard : List Event}
    (hadds : r.client.machine.Adds heard (r.take s).2.client.machine)
    (hrun : st.run heard = some next)
    (hat : (r.take s).2.client.machine.session.IsAt True next) :
    (r.take s).2.Tells config next where
  held := h.held_take s
  observed := hadds.observed.trans h.observed
  word := by
    rw [hadds.heard_eq, Stage.run_append, h.word]
    exact hrun
  journal := by
    rw [journal_take hadds, h.journal, hadds.heard_eq, Journal.afterAll_append]
  stage := hat

private theorem Tells.take (h : r.Tells config st) {s : Client.Step} (hconnect : ¬ s.IsConnect)
    (hclose : s ≠ .call .close) : ∃ next, (r.take s).2.Tells config next ∧
      (st = .idle → next = .idle ∧ (r.take s).2.journal = r.journal) := by
  obtain ⟨heard, next, hadds, hrun, hat⟩ :=
    Client.moves_step h.observed h.stage hconnect hclose
  refine ⟨next, h.toAccords.take hadds hrun hat, ?_⟩
  rintro rfl
  obtain ⟨rfl, rfl⟩ := Stage.eq_nil_of_run_idle hrun
  exact ⟨rfl, journal_take hadds⟩

/-- Nothing but an interrupt breaks a run off, and nothing else connects or closes its session. -/
theorem step?_cases (r : Run) (signals : Bool) (hs : s ≠ .interrupt) :
    ∃ entry next, r.step? signals s = some (entry, next) ∧
      (next = r ∨ ∃ s : Client.Step, ¬ s.IsConnect ∧ s ≠ .call .close ∧ next = (r.take s).2) := by
  cases s with
  | network e => exact ⟨_, _, rfl, .inr ⟨.network e, id, nofun, rfl⟩⟩
  | fire t => exact ⟨_, _, rfl, .inr ⟨.fire t, id, nofun, rfl⟩⟩
  | signal =>
    cases signals with
    | true => exact ⟨_, _, rfl, .inr ⟨.call .signOut, id, nofun, rfl⟩⟩
    | false => exact ⟨_, _, rfl, .inl rfl⟩
  | interrupt => exact absurd rfl hs

private theorem Tells.step? (h : r.Tells config st) (signals : Bool) (hs : s ≠ .interrupt) :
    ∃ entry after next, r.step? signals s = some (entry, after) ∧ after.Tells config next ∧
      (st = .idle → next = .idle ∧ after.journal = r.journal) := by
  obtain ⟨entry, after, hstep, hsame | ⟨cs, hconnect, hclose, hnext⟩⟩ := r.step?_cases signals hs
  · subst hsame
    exact ⟨entry, _, st, hstep, h, fun hidle ↦ ⟨hidle, rfl⟩⟩
  · subst hnext
    obtain ⟨next, htells, hidle⟩ := h.take hconnect hclose
    exact ⟨entry, _, next, hstep, htells, hidle⟩

private theorem through_cons (r : Run) (rest : List Step) {entry : Entry} {next : Run}
    (h : r.step? signals s = some (entry, next)) :
    r.through signals (s :: rest) = next.through signals rest := by
  simp only [through, List.foldl_cons, after, h, Option.elim_some]

private theorem Tells.through (h : r.Tells config st) (signals : Bool)
    (hsteps : .interrupt ∉ steps) :
    ∃ next, (r.through signals steps).Tells config next ∧
      (st = .idle → next = .idle ∧ (r.through signals steps).journal = r.journal) := by
  induction steps generalizing r st with
  | nil => exact ⟨st, h, fun hidle ↦ ⟨hidle, rfl⟩⟩
  | cons s rest ih =>
    obtain ⟨hs, hrest⟩ := not_or.1 (mt List.mem_cons.2 hsteps)
    obtain ⟨entry, after, mid, hstep, htells, hidle⟩ := h.step? signals (Ne.symm hs)
    obtain ⟨next, hlast, hidle'⟩ := ih htells hrest
    rw [through_cons r rest hstep]
    refine ⟨next, hlast, fun hover ↦ ?_⟩
    obtain ⟨hmid, hsame⟩ := hidle hover
    obtain ⟨hnext, hsame'⟩ := hidle' hmid
    exact ⟨hnext, hsame'.trans hsame⟩

/-- What happens to a run that is over does not change how it ends. -/
theorem Tells.exit_through (h : r.Tells config .idle) (signals : Bool)
    (hsteps : .interrupt ∉ steps) : (r.through signals steps).exit = .code r.exitCode := by
  obtain ⟨_, -, hkept⟩ := h.through signals hsteps
  obtain ⟨-, hsame⟩ := hkept rfl
  rw [exit, isOver, exitCode, hsame]
  exact if_pos (h.isOver_iff.2 rfl)

/-- A run ends as all that happens to it says, also what happens after its end. -/
theorem Tells.exit_follow (h : r.Tells config st) (hgoing : st ≠ .idle) (signals : Bool)
    (hsteps : .interrupt ∉ steps) :
    (r.follow signals steps).exit = (r.through signals steps).exit := by
  induction steps generalizing r st with
  | nil =>
    have hnot : ¬ r.isOver = true := mt h.isOver_iff.1 hgoing
    show Exit.running = r.exit
    rw [exit, if_neg hnot]
  | cons s rest ih =>
    obtain ⟨hs, hrest⟩ := not_or.1 (mt List.mem_cons.2 hsteps)
    obtain ⟨entry, after, mid, hstep, htells, -⟩ := h.step? signals (Ne.symm hs)
    rw [through_cons r rest hstep]
    simp only [follow, hstep]
    by_cases hover : after.isOver = true
    · cases htells.isOver_iff.1 hover
      rw [if_pos hover, htells.exit_through signals hrest]
      rfl
    · rw [if_neg hover]
      exact ih htells (mt htells.isOver_iff.2 hover) hrest

private theorem Tells.exit_report (h : r.start.2.Tells config st) (signals : Bool)
    (hsteps : .interrupt ∉ steps) :
    (r.report signals steps).exit = (r.start.2.through signals steps).exit := by
  simp only [report]
  by_cases hover : r.start.2.isOver = true
  · cases h.isOver_iff.1 hover
    rw [if_pos hover, h.exit_through signals hsteps]
    rfl
  · rw [if_neg hover]
    exact h.exit_follow (mt h.isOver_iff.2 hover) signals hsteps

/-! ### Start and end -/

/-- A valid port can be written, so that nothing stops the first call. -/
theorem answer_connect {c : Config} (hc : c.fault? = none) (policy : Policy) :
    ∃ a, ((Machine.fresh c true policy).step .silent 0
      (.call (.connect none none none))).1 = .answer a := by
  have hwritable : (Call.connect none none none).IsWritable c := by
    have hport : 0 < c.port ∧ c.port < 65536 := by
      rw [Config.fault?] at hc
      split at hc
      · cases hc
      · split at hc
        · cases hc
        · next hrange => simpa using hrange
    refine ⟨?_, fun _ hgiven ↦ by cases hgiven⟩
    show Numeral.IsWritable (if c.port ≤ 0 then Config.defaultPort else c.port)
    rw [if_neg (by omega)]
    refine Numeral.isWritable_of_lt (k := 5) ?_ (by decide)
    show c.port.natAbs < 100000
    omega
  have htell := SessionM.steady_tell (Machine.isSteady_silent c) False.elim 0
  have hstands := SessionM.stands_perform htell (Machine.stands_fresh c true policy)
    (.connect none none none) False.elim
  have hreact : SessionM.Ensures (Machine.react (Observer.silent.tell 0)
      (.call (.connect none none none))) (Machine.fresh c true policy)
      (fun reply _ ↦ ∃ a, reply = .answer a) fun _ ↦ False := by
    simp only [Machine.react, SessionM.ensures_bind, SessionM.ensures_pure]
    exact hstands.mono (fun a _ _ ↦ ⟨a, rfl⟩) fun _ hafter ↦ hafter.2 hwritable
  rcases hreact.runWith_cases with hanswer | ⟨-, hfault⟩
  · exact hanswer
  · exact hfault.elim

private theorem accords_unstarted (c : Config) (online : Bool) (threshold : Nat) :
    (unstarted c online threshold).Accords c .opening where
  held := ⟨.fresh c online, rfl, Client.Watch.holds_fresh c online⟩
  observed := rfl
  word := rfl
  journal := rfl

private theorem snd_start (r : Run) :
    r.start.2 = (r.take (.call (.connect none none none))).2 := rfl

/-- The first call begins an episode, or reports at once that the server was not reached. -/
theorem Accords.start (h : r.Accords config .opening)
    (hidle : r.client.machine.session.IsAt True .idle) {a : Option Bool}
    (hanswer : (r.client.machine.step .silent 0 (.call (.connect none none none))).1 = .answer a) :
    ∃ st, r.start.2.Tells config st := by
  rw [snd_start]
  rcases Machine.connect_cases 0 h.observed hidle none none none fun _ ↦ nofun with
    ⟨-, -, hadds, hat⟩ | ⟨-, hadds, hat⟩ | ⟨⟨f, hfault⟩, -⟩
  · exact ⟨.opening, h.take hadds rfl hat⟩
  · exact ⟨.idle, h.take hadds rfl hat⟩
  · cases hanswer.symm.trans hfault

/-- With valid settings the session starts, or is found not to reach its server. -/
theorem tells_start {c : Config} (hc : c.fault? = none) (online : Bool) (threshold : Nat) :
    ∃ st, (unstarted c online threshold).start.2.Tells c st := by
  obtain ⟨a, hanswer⟩ := answer_connect hc (Client.fresh c online).machine.host.policy
  have hreset : (Client.fresh c online).machine.session.IsReset :=
    ⟨⟨rfl, rfl, rfl, rfl, rfl, rfl⟩, rfl, rfl⟩
  exact (accords_unstarted c online threshold).start hreset.isAt hanswer

/-- Closing a session that is over does nothing. -/
theorem Tells.take_close (h : r.Tells config .idle) :
    r.take (.call .close) = (⟨.done, [], []⟩, r) := by
  obtain ⟨w, hclient, hholds⟩ := h.held
  have hover : r.client.IsOver := hclient ▸ hholds.isOver (by rw [hclient]; exact h.stage.phase)
  obtain ⟨hcommand, hnotify⟩ := h.stage.absent trivial
  have hclosed : r.client.machine.step .silent 0 (.call .close) =
      (.answer none, r.client.machine) := by
    have hreset : Machine.runWith r.client.machine
        (Machine.react (Observer.silent.tell 0) (.call .close)) =
        (.answer none, r.client.machine.reset) := rfl
    rw [Machine.step, hreset, Machine.reset_of_isReset _ ⟨hover.ended, hcommand, hnotify⟩]
  have hnothing : r.client.machine.newLines r.client.machine = [] := by
    simp [Machine.newLines]
  have hadvance : r.client.advance .silent 0 (.call .close) = (.answer none, [], r.client) := by
    have hnetwork : r.client.network.absorb
        (Host.actions (r.client.machine.newLines r.client.machine)) = ([], r.client.network) := by
      rw [hnothing]
      exact Client.settle_of_queue_eq_nil hover.queue
    simp only [Client.advance, hclosed, hnetwork]
  simp only [Run.take, Client.step, hadvance, hnothing]
  rfl

/-- At the end of a run its session is disconnected, and whether it was signed in is known. -/
theorem Tells.of_end (h : r.Tells config st) {before after : List Event} {e : Event}
    (heard : Observer.heard r.client.machine = before ++ e :: after) (hend : e.IsEnd) :
    st = .idle ∧ after = [] ∧ (∀ x ∈ before, ¬ x.IsEnd) ∧
      r.exit = .code (if .signedIn ∈ before then 0 else 1) := by
  rcases h.heard_cases with ⟨rfl, before', e', heard', hend', hbefore⟩ | ⟨-, hno⟩
  · have hsplit : before ++ e :: after = before' ++ [e'] := heard.symm.trans heard'
    have hafter : after = [] := by
      rcases List.eq_nil_or_concat' after with hnil | ⟨most, last, rfl⟩
      · exact hnil
      · rw [← List.cons_append, ← List.append_assoc] at hsplit
        have hin : e ∈ before' := by
          rw [← (List.append_inj' hsplit rfl).1]
          simp
        exact absurd hend (hbefore e hin)
    subst hafter
    obtain ⟨hsame, -⟩ := List.append_inj' hsplit rfl
    subst hsame
    refine ⟨rfl, rfl, hbefore, ?_⟩
    have hsigned : Event.signedIn ∈ before ++ [e] ↔ .signedIn ∈ before := by
      rcases hend with rfl | rfl <;> simp
    rw [exit, if_pos (h.isOver_iff.2 rfl), h.exitCode_eq, heard]
    simp only [hsigned]
  · exact absurd hend (hno e (by simp [heard]))

private theorem Tells.exit_eq_running_iff (h : r.Tells config st) :
    r.exit = .running ↔ ∀ e ∈ Observer.heard r.client.machine, ¬ e.IsEnd := by
  have hover := h.isOver_iff_heard
  rw [exit]
  by_cases hend : r.isOver = true
  · rw [if_pos hend]
    obtain ⟨e, he, hend⟩ := hover.1 hend
    exact iff_of_false nofun fun hno ↦ hno e he hend
  · rw [if_neg hend]
    exact iff_of_true rfl fun e he hend' ↦ hend (hover.2 ⟨e, he, hend'⟩)

private theorem exit_follow_ne (r : Run) (signals : Bool) (steps : List Step) :
    (r.follow signals steps).exit ≠ .code 2 := by
  induction steps generalizing r with
  | nil => nofun
  | cons s rest ih =>
    rw [follow]
    cases r.step? signals s with
    | none => nofun
    | some out =>
      obtain ⟨entry, next⟩ := out
      by_cases hover : next.isOver = true
      · simp only [hover, ↓reduceIte, finish, exitCode]
        split <;> nofun
      · simp only [hover, Bool.false_eq_true, ↓reduceIte]
        exact ih next

/-- The code of settings that cannot be had is that of no run. -/
theorem exit_report_ne (r : Run) (signals : Bool) (steps : List Step) :
    (r.report signals steps).exit ≠ .code 2 := by
  simp only [report]
  by_cases hover : r.start.2.isOver = true
  · simp only [hover, ↓reduceIte, finish, exitCode]
    split <;> nofun
  · simp only [hover, Bool.false_eq_true, ↓reduceIte]
    exact exit_follow_ne _ signals steps

end Headless.Run

/-! ### Settings that cannot be had -/

/-- The kinds of error that the command tells apart. -/
inductive ConfigError.Family where
  /-- The operating system refused something. -/
  | system
  /-- A value is not acceptable. -/
  | value
  /-- A value is of another kind than it should be. -/
  | kind
  deriving DecidableEq

/-- The kind of an error. -/
def ConfigError.family : ConfigError → Family
  | .noFile _ .nullCharacter => .value
  | .noFile _ _ => .system
  | .notText _ => .value
  | .badInteger _ _ => .value
  | .badReal _ => .value
  | .vacantPort => .kind
  | .unusable _ => .value

/-- What is reported is an error of the operating system or of a value. -/
theorem ConfigError.isSome_report? (e : ConfigError) :
    e.report?.isSome = true ↔ e.family = .system ∨ e.family = .value := by
  cases e with
  | noFile path cause => cases cause <;> simp [report?, family]
  | notText flaw => simp [report?, family]
  | badInteger text cause => simp [report?, family]
  | badReal text => simp [report?, family]
  | vacantPort => simp [report?, family]
  | unusable fault => simp [report?, family]

namespace Headless.Launch

variable {e : Environment} {files : String → Except FileError Bytes} {a : Arguments}

/-- What is launched is a run that has done nothing yet, under settings without a fault. -/
theorem exists_of_ready {r : Run} (h : ofSettings e files a = .ready r) :
    ∃ c threshold, c.fault? = none ∧ r = .unstarted c true threshold := by
  rw [ofSettings] at h
  cases hload : Config.load e files a with
  | error error =>
    simp only [hload] at h
    cases hreport : error.report? <;> simp only [hreport] at h <;> cases h
  | ok c =>
    simp only [hload, Run.fresh] at h
    cases hlevel : c.logLevel with
    | none =>
      simp only [hlevel] at h
      cases h
    | some name =>
      simp only [hlevel] at h
      cases hrank : Level.ofName name with
      | error error =>
        simp only [hrank, Except.map] at h
        cases h
      | ok level =>
        simp only [hrank, Except.map] at h
        cases h
        exact ⟨c, _, Config.fault?_of_load hload, rfl⟩

/-- The command ends with the code for settings just where they are reported not to be had. -/
theorem exit_report_iff (signals : Bool) (steps : List Step) :
    ((ofSettings e files a).report signals steps).exit = .code 2 ↔
      ∃ error, Config.load e files a = .error error ∧
        (error.family = .system ∨ error.family = .value) := by
  rw [ofSettings]
  cases Config.load e files a with
  | error error =>
    have hreported := error.isSome_report?
    cases hreport : error.report? with
    | none =>
      have hnot : ¬ (error.family = .system ∨ error.family = .value) := by
        rw [← hreported, hreport]
        nofun
      simpa [report, hreport] using not_or.1 hnot
    | some text =>
      have hfamily : error.family = .system ∨ error.family = .value := by
        rw [← hreported, hreport]
        rfl
      simpa [report, hreport] using hfamily
  | ok c =>
    cases hfresh : Run.fresh c with
    | error error => simp [report, hfresh]
    | ok r => simp [report, hfresh, Run.exit_report_ne]

/-- Nothing is done where the command ends with the code for settings. -/
theorem report_eq_of_exit {signals : Bool} {steps : List Step}
    (h : ((ofSettings e files a).report signals steps).exit = .code 2) :
    (ofSettings e files a).report signals steps = { exit := .code 2 } := by
  cases hlaunch : ofSettings e files a with
  | refused text => rfl
  | broken message =>
    rw [hlaunch] at h
    cases h
  | ready r =>
    rw [hlaunch] at h
    exact absurd h (r.exit_report_ne signals steps)

end Headless.Launch

namespace Headless.Run

/-- A run ends just where the end of its session is reported, which comes to pass once at most,
whatever happens and however often it is asked to end. The session is disconnected then, so that
closing it reports nothing and does nothing; the exit code is zero just if signing in was complete
before. The command ends with code two, and nothing is asked of the network, just where settings
cannot be had because of the operating system or a value; what it leads otherwise is such a run. -/
theorem ends_with_session {c : Config} (hc : c.fault? = none) (online : Bool) (threshold : Nat)
    (signals : Bool) {steps : List Step} (hsteps : .interrupt ∉ steps) :
    let begun := unstarted c online threshold
    let last := begun.start.2.through signals steps
    let heard := Observer.heard last.client.machine
    ((begun.report signals steps).exit = .running ↔ ∀ e ∈ heard, ¬ e.IsEnd) ∧
    (∀ before e after, heard = before ++ e :: after → e.IsEnd →
      after = [] ∧ (∀ x ∈ before, ¬ x.IsEnd) ∧
      (begun.report signals steps).exit = .code (if .signedIn ∈ before then 0 else 1) ∧
      last.client.machine.session.phase = .disconnected ∧
      last.take (.call .close) = (⟨.done, [], []⟩, last)) ∧
    ∀ e files a,
      let launch := Launch.ofSettings e files a
      ((launch.report signals steps).exit = .code 2 ↔ ∃ error, Config.load e files a =
        .error error ∧ (error.family = .system ∨ error.family = .value)) ∧
      ((launch.report signals steps).exit = .code 2 →
        launch.report signals steps = { exit := .code 2 }) ∧
      ∀ r, launch = .ready r →
        ∃ c threshold, c.fault? = none ∧ r = .unstarted c true threshold := by
  intro begun last heard
  obtain ⟨st, hstart⟩ := tells_start hc online threshold
  have hexit : (begun.report signals steps).exit = last.exit := hstart.exit_report signals hsteps
  obtain ⟨next, hlast, -⟩ := hstart.through signals hsteps
  refine ⟨?_, ?_, ?_⟩
  · rw [hexit]
    exact hlast.exit_eq_running_iff
  · intro before e after hheard hend
    obtain ⟨rfl, hafter, hbefore, hcode⟩ := hlast.of_end hheard hend
    exact ⟨hafter, hbefore, hexit.trans hcode, hlast.stage.phase, hlast.take_close⟩
  · intro e files a launch
    exact ⟨Launch.exit_report_iff signals steps, Launch.report_eq_of_exit,
      fun r ↦ Launch.exists_of_ready⟩

/-- A session signs in, and is asked twice to end; its sign-out is answered, and only then the
connection of its long poll comes up. -/
def askedTwice : List Step := [
  .network (.resolved 0 ["10.0.0.5"]),
  .network (.up 0),
  .network (.data 0 (Bytes.ofAscii "HTTP/1.1 200 OK\r\nPragma: 7\r\nContent-Length: 0\r\n\r\n")),
  .signal,
  .signal,
  .network (.up 2),
  .network (.data 2 (Bytes.ofAscii "HTTP/1.1 200 OK\r\nContent-Length: 0\r\n\r\n")),
  .signal,
  .network (.up 1)]

/-- The run that is asked twice to end signed in before, so its exit code is zero. -/
theorem ends_with_session_askedTwice :
    (Config.standard "alice").fault? = none ∧ .interrupt ∉ askedTwice ∧
      ((unstarted (Config.standard "alice") true 20).report true askedTwice).exit = .code 0 := by
  have hvalid : (Config.standard "alice").fault? = none := by decide +kernel
  have hsteps : .interrupt ∉ askedTwice := by decide
  have hheard : Observer.heard ((unstarted (Config.standard "alice") true 20).start.2.through true
      askedTwice).client.machine = [.signedIn] ++ [.disconnected] := by
    decide +kernel
  obtain ⟨-, hend, -⟩ := ends_with_session hvalid true 20 true hsteps
  obtain ⟨-, -, hexit, -⟩ := hend _ _ _ hheard (.inl rfl)
  exact ⟨hvalid, hsteps, hexit⟩

end Headless.Run

end Rendezvous
