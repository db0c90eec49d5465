import Rendezvous.Proofs.Network.Line

/-!
# What a channel tells of each attempt

Of one attempt the owner of a channel is told that it failed, or else that it has its connection,
what is received on it, and that it came to its end. When the owner closes the channel this may
break off at any place, and is then never taken up again.
-/

namespace Rendezvous.Network.Line

/-! ### Accounts -/

/-- What an owner can be told of one attempt. -/
inductive IsAccount : List Channel.Event → Prop where
  | none : IsAccount []
  | failed (code : Int) : IsAccount [.closed code]
  | going (chunks : List Bytes) : IsAccount (.connected :: chunks.map .received)
  | ended (chunks : List Bytes) (code : Int) :
      IsAccount (.connected :: chunks.map .received ++ [.closed code])

/-- The event that the owner is told of. -/
def Mark.told? : Mark → Option Channel.Event
  | .told e => some e
  | _ => none

/-- The attempt that something has just happened to. -/
def cause? : List Moment → Option Nat
  | ⟨.befell e _, _⟩ :: _ => e.attempt?
  | _ => none

/-- What the owner is told of an attempt, oldest first. -/
def toldOf (n : Nat) : List Moment → List Channel.Event
  | [] => []
  | x :: past => toldOf n past ++ if cause? past = some n then x.mark.told?.toList else []

/-- What the owner has still to be told of an attempt. -/
def owedOf (n : Nat) (past : List Moment) : List Channel.Event :=
  if cause? past = some n then (owed past).toList else []

/-- What the owner has to be told of an attempt in all, oldest first. -/
def dueOf (n : Nat) : List Moment → List Channel.Event
  | [] => []
  | x :: past => dueOf n past ++ owedOf n (x :: past)

variable {h : Hold} {e : Event} {event : Channel.Event} {n : Nat} {x : Moment}
  {owned online : Bool} {past later : List Moment}

/-- Only of the attempt of the connection asked for last is anything told. -/
theorem Hold.attempt?_of_tells (htells : h.tells e = some event) :
    ∃ n, e.attempt? = some n ∧ h.attempt? = some n := by
  cases h <;> cases e <;> simp_all [Hold.tells, Hold.attempt?, Event.attempt?]

private theorem Mark.told?_eq_some {m : Mark} : m.told? = some event ↔ m = .told event := by
  cases m <;> simp [Mark.told?]

/-- The owner is told of what is owed, and of nothing else. -/
theorem Moment.Fits.told?_eq (hx : x.Fits owned online past) :
    x.mark.told? = if owned then owed past else none := by
  ext event
  rw [Mark.told?_eq_some, hx.told event]
  cases owned <;> simp

/-- The owner is told of what is due at the next moment. -/
theorem toldOf_cons (hfit : AllFit true online (x :: past)) :
    toldOf n (x :: past) = dueOf n past := by
  induction past generalizing x with
  | nil => simp [toldOf, cause?, dueOf]
  | cons y past ih =>
    rw [toldOf, hfit.1.told?_eq, ih hfit.2, dueOf]
    rfl

private theorem toldOf_unowned (hfit : AllFit false online past) : toldOf n past = [] := by
  induction past with
  | nil => rfl
  | cons x past ih => simp [toldOf, hfit.1.told?_eq, ih hfit.2]

/-! ### One attempt -/

/-- What is due of an attempt, as far as it has come. -/
structure Accounts (n : Nat) (past : List Moment) : Prop where
  begun : (hold past).attempt? = some n → HasBegun n past
  unbegun : ¬ HasBegun n past → dueOf n past = []
  pending : hold past = .pending n → dueOf n past = []
  up : hold past = .up n → ∃ chunks : List Bytes, dueOf n past = .connected :: chunks.map .received
  isAccount : IsAccount (dueOf n past)

/-- Nothing becomes due of an attempt by what leaves the connection on other attempts. -/
theorem Accounts.cons (hn : Accounts n past) (hdue : owedOf n (x :: past) = [])
    (hbegun : HasBegun n (x :: past) ↔ HasBegun n past)
    (hhold : (hold (x :: past)).attempt? = some n → hold (x :: past) = hold past) :
    Accounts n (x :: past) := by
  have heq : dueOf n (x :: past) = dueOf n past := by rw [dueOf, hdue, List.append_nil]
  refine ⟨fun h ↦ hbegun.2 (hn.begun (hhold h ▸ h)), fun h ↦ ?_, fun h ↦ ?_, fun h ↦ ?_, ?_⟩
  · exact heq.trans (hn.unbegun fun hbefore ↦ h (hbegun.2 hbefore))
  · exact heq.trans (hn.pending ((hhold (congrArg _ h)).symm.trans h))
  · exact heq ▸ hn.up ((hhold (congrArg _ h)).symm.trans h)
  · exact heq ▸ hn.isAccount

/-- An attempt that has its connection. -/
theorem Accounts.of_up {chunks : List Bytes} (hbegun : HasBegun n past) (hhold : hold past = .up n)
    (hdue : dueOf n past = .connected :: chunks.map .received) : Accounts n past :=
  ⟨fun _ ↦ hbegun, fun h ↦ absurd hbegun h, fun h ↦ (nomatch hhold.symm.trans h),
    fun _ ↦ ⟨chunks, hdue⟩, hdue ▸ .going chunks⟩

/-- An attempt that has come to its end. -/
theorem Accounts.of_over (hbegun : HasBegun n past) (hhold : hold past = .none)
    (haccount : IsAccount (dueOf n past)) : Accounts n past :=
  ⟨fun _ ↦ hbegun, fun h ↦ absurd hbegun h, fun h ↦ (nomatch hhold.symm.trans h),
    fun h ↦ (nomatch hhold.symm.trans h), haccount⟩

/-- The attempt that the event is about takes its course. -/
theorem Accounts.befell {seen : List Signal} {phase : Channel.Phase} (hn : Accounts n past)
    (htells : (hold past).tells e = some event) (he : e.attempt? = some n) :
    Accounts n (⟨.befell e seen, phase⟩ :: past) := by
  obtain ⟨k, hek, hholdk⟩ := Hold.attempt?_of_tells htells
  cases he.symm.trans hek
  have hbegun : HasBegun n (⟨.befell e seen, phase⟩ :: past) :=
    hasBegun_cons.2 (.inr (hn.begun hholdk))
  have hdue : dueOf n (⟨.befell e seen, phase⟩ :: past) = dueOf n past ++ [event] := by
    simp [dueOf, owedOf, cause?, he, owed, htells]
  have hafter : hold (⟨.befell e seen, phase⟩ :: past) = (hold past).after (.befell e seen) := rfl
  cases hh : hold past with
  | none => simp [hh, Hold.attempt?] at hholdk
  | wanted => simp [hh, Hold.attempt?] at hholdk
  | pending k =>
    obtain rfl : k = n := by simpa [hh, Hold.attempt?] using hholdk
    rw [hn.pending hh, List.nil_append] at hdue
    rw [hh] at hafter htells
    simp only [Hold.after, htells] at hafter
    cases e with
    | up m =>
      obtain ⟨rfl, rfl⟩ : m = k ∧ Channel.Event.connected = event := by
        simpa [Hold.tells] using htells
      apply Accounts.of_up hbegun hafter
      exact hdue.trans (congrArg _ List.map_nil.symm)
    | fail m ending =>
      obtain ⟨rfl, rfl⟩ : m = k ∧ Channel.Event.closed ending.code = event := by
        simpa [Hold.tells] using htells
      apply Accounts.of_over hbegun hafter
      rw [hdue]
      exact .failed ending.code
    | _ => simp [Hold.tells] at htells
  | up k =>
    obtain rfl : k = n := by simpa [hh, Hold.attempt?] using hholdk
    obtain ⟨chunks, hchunks⟩ := hn.up hh
    rw [hchunks] at hdue
    rw [hh] at hafter htells
    simp only [Hold.after, htells] at hafter
    cases e with
    | data m bytes =>
      obtain ⟨rfl, rfl⟩ : m = k ∧ Channel.Event.received bytes = event := by
        simpa [Hold.tells] using htells
      apply Accounts.of_up hbegun hafter
      rw [hdue, List.cons_append, ← List.map_singleton, ← List.map_append]
    | lost m ending =>
      obtain ⟨rfl, rfl⟩ : m = k ∧ Channel.Event.closed ending.code = event := by
        simpa [Hold.tells] using htells
      apply Accounts.of_over hbegun hafter
      rw [hdue]
      exact .ended chunks ending.code
    | _ => simp [Hold.tells] at htells

/-- A call leaves no attempt but the one that there was. -/
theorem Hold.after_asked {c : ChannelCall} {a : ChannelAnswer} {seen : List Signal}
    (hn : (h.after (.asked c a seen)).attempt? = some n) : h.after (.asked c a seen) = h := by
  cases c with
  | connect address =>
    cases a with
    | accepted yes =>
      cases yes with
      | false => rfl
      | true => simp [Hold.after, Hold.attempt?] at hn
    | _ => rfl
  | send bytes => rfl
  | close => simp [Hold.after, Hold.attempt?] at hn

/-- Only an attempt that starts takes the place of another. -/
theorem Hold.attempt?_of_after {m : Mark} (hm : ∀ k address, m ≠ .began k address)
    (hn : (h.after m).attempt? = some n) : h.attempt? = some n := by
  cases m with
  | asked c a seen => exact Hold.after_asked hn ▸ hn
  | began k address => exact absurd rfl (hm k address)
  | befell e seen =>
    cases htells : h.tells e with
    | none => rwa [Hold.after_befell_eq_self htells] at hn
    | some event =>
      cases h <;> cases event <;> simp_all [Hold.after, Hold.attempt?]
  | told event => exact hn

private theorem accounts_of_allFit (hfit : AllFit owned online past) (n : Nat) :
    Accounts n past := by
  induction past with
  | nil => exact ⟨nofun, fun _ ↦ rfl, nofun, nofun, .none⟩
  | cons x past ih =>
    have hn := ih hfit.2
    obtain ⟨mark, phase⟩ := x
    cases mark with
    | asked c a seen =>
      apply hn.cons
      · rfl
      · simp [hasBegun_cons]
      · exact Hold.after_asked
    | began k address =>
      obtain ⟨hhold, hfresh⟩ := hfit.1.began k address rfl
      by_cases hk : k = n
      · subst hk
        have hbegun : HasBegun k (⟨.began k address, phase⟩ :: past) :=
          hasBegun_cons.2 (.inl ⟨address, rfl⟩)
        have hdue : dueOf k (⟨.began k address, phase⟩ :: past) = [] := by
          rw [dueOf, hn.unbegun hfresh]
          rfl
        exact ⟨fun _ ↦ hbegun, fun h ↦ absurd hbegun h, fun _ ↦ hdue, nofun, hdue ▸ .none⟩
      · apply hn.cons
        · rfl
        · simp [hasBegun_cons, hk]
        · intro h
          exact absurd (Option.some.inj h) hk
    | befell e seen =>
      have hbegun : HasBegun n (⟨.befell e seen, phase⟩ :: past) ↔ HasBegun n past := by
        simp [hasBegun_cons]
      cases htells : (hold past).tells e with
      | none =>
        apply hn.cons _ hbegun
        · exact fun _ ↦ Hold.after_befell_eq_self htells seen
        · simp [owedOf, owed, htells]
      | some event =>
        obtain ⟨k, hek, hholdk⟩ := Hold.attempt?_of_tells htells
        by_cases hk : k = n
        · exact hn.befell htells (hk ▸ hek)
        · apply hn.cons _ hbegun
          · intro h
            have hholdn := Hold.attempt?_of_after (by simp) h
            cases hholdk.symm.trans hholdn
            exact absurd rfl hk
          · simp [owedOf, cause?, hek, hk]
    | told event =>
      apply hn.cons
      · rfl
      · simp [hasBegun_cons]
      · exact fun _ ↦ rfl

/-- Of an attempt that the channel has left the owner is never told again. -/
theorem toldOf_of_left (hfit : AllFit owned online (later ++ past)) (hbegun : HasBegun n past)
    (hleft : (hold past).attempt? ≠ some n) (hpaid : owedOf n past = []) :
    toldOf n (later ++ past) = toldOf n past ∧ (hold (later ++ past)).attempt? ≠ some n ∧
      owedOf n (later ++ past) = [] := by
  induction later with
  | nil => exact ⟨rfl, hleft, hpaid⟩
  | cons x later ih =>
    obtain ⟨htold, hgone, hnone⟩ := ih hfit.2
    refine ⟨?_, fun h ↦ ?_, ?_⟩
    · have hnow : (if cause? (later ++ past) = some n then x.mark.told?.toList else []) = [] := by
        rw [hfit.1.told?_eq]
        cases owned with
        | true => exact hnone
        | false => simp
      rw [List.cons_append, toldOf, htold, hnow, List.append_nil]
    · by_cases hbegan : ∃ k address, x.mark = .began k address
      · obtain ⟨k, address, hx⟩ := hbegan
        have hfresh := (hfit.1.began k address hx).2
        have hk : k = n := by simpa [hold, hx, Hold.after, Hold.attempt?] using h
        apply hfresh
        obtain ⟨y, hy, hmark⟩ := hbegun
        exact ⟨y, List.mem_append_right later hy, hk ▸ hmark⟩
      · apply hgone
        apply Hold.attempt?_of_after _ h
        exact fun k address hx ↦ hbegan ⟨k, address, hx⟩
    · obtain ⟨mark, phase⟩ := x
      cases mark with
      | befell e seen =>
        have hsilent : e.attempt? = some n → (hold (later ++ past)).tells e = none := by
          intro he
          cases htells : (hold (later ++ past)).tells e with
          | none => rfl
          | some event =>
            obtain ⟨k, hek, hholdk⟩ := Hold.attempt?_of_tells htells
            exact absurd (hholdk.trans (hek.symm.trans he)) hgone
        have howed : owedOf n (⟨.befell e seen, phase⟩ :: (later ++ past)) =
            if e.attempt? = some n then ((hold (later ++ past)).tells e).toList else [] := rfl
        rw [List.cons_append, howed]
        split
        · rw [hsilent ‹_›]
          rfl
        · rfl
      | _ => rfl

private theorem AllFit.of_append (hfit : AllFit owned online (later ++ past)) :
    AllFit owned online past := by
  induction later with
  | nil => exact hfit
  | cons x later ih => exact ih hfit.2

private theorem isAccount_toldOf (hfit : AllFit owned online past) (n : Nat) :
    IsAccount (toldOf n past) := by
  cases past with
  | nil => exact .none
  | cons x past =>
    cases owned with
    | true =>
      rw [toldOf_cons hfit]
      exact (accounts_of_allFit hfit.2 n).isAccount
    | false =>
      rw [toldOf_unowned hfit]
      exact .none

/-- A channel tells of its latest connection only. Whatever its owner does, also when it is told of
something, and whatever becomes of the attempts that were ever started, in any order: what takes
place in a step is what its result shows; every moment is right, so that the owner is told of the
connection asked for last and of no other, and calls are answered by what became of that connection;
the phase is that of this connection. Of each attempt the owner is told at any time a connection,
what is received and an end, or a prefix of that, or a failure alone; and nothing more after it
closed the channel. -/
theorem story_of_latest (name : String) (owned online : Bool) (steps : List (Owner × Step))
    (hs : ∀ s ∈ steps, s.2.IsAnswered) :
    let l : Line := { name, owned, online }
    (∀ done owner s rest, steps = done ++ (owner, s) :: rest →
      entriesOf ((l.run done).moments owner s) = ((l.run done).step owner s).1.entriesOf s ∧
        seenOf ((l.run done).moments owner s) = ((l.run done).step owner s).1.seen) ∧
    (l.run steps).phase = (hold (l.story steps)).phase ∧
    (∀ later x past, l.story steps = later ++ x :: past → x.Fits owned online past) ∧
    (∀ n later past, l.story steps = later ++ past → IsAccount (toldOf n past)) ∧
    ∀ n later a seen phase past, l.story steps = later ++ ⟨.asked .close a seen, phase⟩ :: past →
      HasBegun n past → toldOf n (l.story steps) = toldOf n past := by
  intro l
  have hall : Told owned online (l.story steps) (l.run steps) := by
    simpa using (told_fresh name owned online).run hs
  have hsuffix {later past} (heq : l.story steps = later ++ past) : AllFit owned online past :=
    AllFit.of_append (heq ▸ hall.fits)
  refine ⟨?_, hall.rests.phase_eq, ?_, ?_, ?_⟩
  · rintro done owner s rest rfl
    obtain ⟨hdone, hrest⟩ := List.forall_mem_append.1 hs
    have hbefore := (told_fresh name owned online).run hdone
    exact hbefore.shows owner (hrest _ List.mem_cons_self)
  · intro later x past heq
    exact (hsuffix heq).1
  · intro n later past heq
    exact isAccount_toldOf (hsuffix heq) n
  · intro n later a seen phase past heq hbegun
    have hfit := hall.fits
    rw [heq] at hfit ⊢
    have hleft := toldOf_of_left hfit (hasBegun_cons.2 (.inr hbegun)) nofun rfl
    rw [hleft.1]
    simp [toldOf, Mark.told?]

/-- The address that the owner of a sample channel dials. -/
def sampleAddress : Address := ⟨"10.0.0.5", 8888⟩

/-- An owner that greets whoever it is connected to, and dials again whenever it is let down. -/
def eager : Owner := fun
  | .connected => [.send [104, 105]]
  | .received _ => []
  | .closed _ => [.connect sampleAddress]

/-- The owner dials, closes and dials again; the attempt that it gave up is made all the same, the
other one brings bytes and is lost, and the one that the owner then starts is refused. -/
def redialled : List (Owner × Step) := List.map (Prod.mk eager) [
  .call (.connect sampleAddress), .call .close, .call (.connect sampleAddress),
  .network (.up 0), .network (.up 1), .network (.data 1 [33]), .network (.lost 1 .clean),
  .network (.data 0 [33]), .network (.fail 2 .refused)]

/-- Nothing is told of the attempt that was given up, and the next one is told of up to its loss. -/
theorem story_of_latest_redialled :
    let l : Line := { name := "command" }
    (∀ s ∈ redialled, s.2.IsAnswered) ∧
      (l.run redialled).phase = .connecting ∧
      toldOf 0 (l.story redialled) = [] ∧
      toldOf 1 (l.story redialled) = [.connected, .received [33], .closed 0] ∧
      (l.run redialled).phase = (hold (l.story redialled)).phase := by
  have hs : ∀ s ∈ redialled, s.2.IsAnswered := by simp [redialled, Step.IsAnswered]
  have hall := story_of_latest "command" true true redialled hs
  refine ⟨hs, ?_, ?_, ?_, hall.2.1⟩
  · decide +kernel
  · decide +kernel
  · decide +kernel

end Rendezvous.Network.Line
