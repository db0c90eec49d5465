import Rendezvous.Proofs.Network.Basic
import Rendezvous.Proofs.Network.Inquiry

/-!
# The answers to the starts of a resolver

Every start that was granted has an answer of its own: that to the lookup which was made for it. It
is handed over once at most, and never after the owner gave up. It is left out only where the owner
gave up, or where the lookup failed by an error that does not come from the operating system; the
resolver is busy for good then.
-/

namespace Rendezvous.Network.Inquiry

/-! ### Starts and their answers -/

/-- What took place at a moment, by the number of moments before it. -/
def markAt? (t : Nat) : List Moment → Option Mark
  | [] => none
  | x :: past => if t = past.length then some x.mark else markAt? t past

/-- Whether a start for a host was granted at a moment. -/
def IsGranted (t : Nat) (host : String) (past : List Moment) : Prop :=
  ∃ port, markAt? t past = some (.asked (.start host port) (.accepted true))

/-- Whether the owner gave up after a moment. -/
def IsGivenUp (t : Nat) : List Moment → Prop
  | [] => False
  | x :: past => (t < past.length ∧ ∃ a, x.mark = .asked .cancel a) ∨ IsGivenUp t past

instance (m : Mark) : Decidable (∃ a, m = .asked .cancel a) :=
  match m with
  | .asked .cancel a => .isTrue ⟨a, rfl⟩
  | .asked (.start _ _) _ => .isFalse nofun
  | .began _ _ _ _ => .isFalse nofun
  | .befell _ => .isFalse nofun
  | .told _ _ => .isFalse nofun

instance decidableIsGivenUp (t : Nat) : (past : List Moment) → Decidable (IsGivenUp t past)
  | [] => .isFalse id
  | x :: past =>
    have := decidableIsGivenUp t past
    inferInstanceAs
      (Decidable ((t < past.length ∧ ∃ a, x.mark = .asked .cancel a) ∨ IsGivenUp t past))

/-- The moment of the start that was granted last. -/
def lastStart? : List Moment → Option Nat
  | [] => none
  | ⟨.asked (.start _ _) (.accepted true), _⟩ :: past => some past.length
  | _ :: past => lastStart? past

/-- The moment of the start that a lookup was made for. -/
def startOf? (k : Nat) : List Moment → Option Nat
  | [] => none
  | ⟨.began j _ _ _, _⟩ :: past => if j = k then lastStart? past else startOf? k past
  | _ :: past => startOf? k past

/-- The moment of the start whose lookup has just ended. -/
def cause? : List Moment → Option Nat
  | ⟨.befell e, _⟩ :: past => e.lookup?.bind (startOf? · past)
  | _ => none

/-- The answer that is handed over, with the host that it is for. -/
def Mark.told? : Mark → Option (String × Answer)
  | .told host answer => some (host, answer)
  | _ => none

/-- The answers that are handed over for a start, oldest first. -/
def answersOf (t : Nat) : List Moment → List (String × Answer)
  | [] => []
  | x :: past => answersOf t past ++ if cause? past = some t then x.mark.told?.toList else []

/-- The start of an errand, and the host that it is for. -/
def Errand.start? : Errand → Option (Nat × String)
  | .none => Option.none
  | .wanted t host _ => some (t, host)
  | .pending t _ host => some (t, host)
  | .stuck t _ host => some (t, host)

variable {t k : Nat} {host : String} {answer : Answer} {x : Moment} {past later : List Moment}
  {family : Family} {online : Bool} {q : Inquiry} {e : Event}

private theorem lt_of_markAt? {m : Mark} (h : markAt? t past = some m) : t < past.length := by
  induction past with
  | nil => cases h
  | cons x past ih =>
    simp only [markAt?] at h
    split at h
    · simp [*]
    · exact Nat.lt_succ_of_lt (ih h)

private theorem markAt?_length (past : List Moment) : markAt? past.length past = none := by
  rw [Option.eq_none_iff_forall_ne_some]
  exact fun _ h ↦ Nat.lt_irrefl _ (lt_of_markAt? h)

private theorem IsGranted.lt (h : IsGranted t host past) : t < past.length :=
  h.elim fun _ ↦ lt_of_markAt?

private theorem isGranted_cons : IsGranted t host (x :: past) ↔
    (t = past.length ∧ ∃ port, x.mark = .asked (.start host port) (.accepted true)) ∨
      IsGranted t host past := by
  by_cases ht : t = past.length
  · subst ht
    simp [IsGranted, markAt?, markAt?_length]
  · simp [IsGranted, markAt?, ht]

private theorem IsGranted.cons (h : IsGranted t host past) (x : Moment) :
    IsGranted t host (x :: past) :=
  isGranted_cons.2 (.inr h)

private theorem IsGivenUp.lt (h : IsGivenUp t past) : t < past.length := by
  induction past with
  | nil => exact h.elim
  | cons x past ih =>
    rcases h with ⟨hlt, -⟩ | h
    · exact Nat.lt_succ_of_lt hlt
    · exact Nat.lt_succ_of_lt (ih h)

private theorem IsGivenUp.append (h : IsGivenUp t past) (later : List Moment) :
    IsGivenUp t (later ++ past) := by
  induction later with
  | nil => exact h
  | cons x later ih => exact .inr ih

/-- What hands no answer over leaves the answers as they are. -/
theorem answersOf_cons (t : Nat) (hx : x.mark.told? = none) :
    answersOf t (x :: past) = answersOf t past := by
  simp [answersOf, hx]

private theorem hasBegun_of_startOf? (h : startOf? k past = some t) : HasBegun k past := by
  induction past with
  | nil => cases h
  | cons x past ih =>
    obtain ⟨mark, inFlight⟩ := x
    refine hasBegun_cons.2 ?_
    cases mark with
    | began j host port family =>
      by_cases hj : j = k
      · subst hj
        exact .inl ⟨host, port, family, rfl⟩
      · simp only [startOf?, if_neg hj] at h
        exact .inr (ih h)
    | _ => exact .inr (ih h)

private theorem AllFit.of_append (hfit : AllFit family online (later ++ past)) :
    AllFit family online past := by
  induction later with
  | nil => exact hfit
  | cons x later ih => exact ih hfit.2

/-! ### Answers in turn -/

/-- What is handed over so far, and what is left of the starts that were granted. -/
structure InTurn (past : List Moment) : Prop where
  /-- The errand is that of the start granted last, which has no answer and is still wanted. -/
  current : ∀ t host, (errand past).start? = some (t, host) →
    IsGranted t host past ∧ lastStart? past = some t ∧ answersOf t past = [] ∧ ¬ IsGivenUp t past
  /-- The lookup of the errand was made for its start. -/
  pending : ∀ t k host, errand past = .pending t k host → startOf? k past = some t
  /-- An errand is stuck only by an error that does not come from the operating system. -/
  stuck : ∀ t k host, errand past = .stuck t k host →
    startOf? k past = some t ∧ .befell (.lookupFailed k true) ∈ past.map (·.mark)
  /-- An answer still to be handed over is for a start that has none and is still wanted. -/
  due : ∀ host answer, owed past = some (host, answer) →
    ∃ t, cause? past = some t ∧ IsGranted t host past ∧ answersOf t past = [] ∧ ¬ IsGivenUp t past
  /-- No start has two answers, and only starts that were granted have any. -/
  answered : ∀ t, answersOf t past = [] ∨
    ∃ host answer, answersOf t past = [(host, answer)] ∧ IsGranted t host past
  /-- No start is forgotten. -/
  fate : ∀ t host, IsGranted t host past → IsGivenUp t past ∨
    (∃ answer, answersOf t past = [(host, answer)]) ∨ (errand past).start? = some (t, host) ∨
    ∃ answer, owed past = some (host, answer) ∧ cause? past = some t

/-- Where there is no errand, only the answers matter. -/
theorem InTurn.of_idle (hidle : errand past = .none)
    (due : ∀ host answer, owed past = some (host, answer) → ∃ t, cause? past = some t ∧
      IsGranted t host past ∧ answersOf t past = [] ∧ ¬ IsGivenUp t past)
    (answered : ∀ t, answersOf t past = [] ∨
      ∃ host answer, answersOf t past = [(host, answer)] ∧ IsGranted t host past)
    (fate : ∀ t host, IsGranted t host past → IsGivenUp t past ∨
      (∃ answer, answersOf t past = [(host, answer)]) ∨
      ∃ answer, owed past = some (host, answer) ∧ cause? past = some t) : InTurn past where
  current _ _ h := by
    rw [hidle] at h
    cases h
  pending _ _ _ h := by cases hidle.symm.trans h
  stuck _ _ _ h := by cases hidle.symm.trans h
  due := due
  answered := answered
  fate t host h := (fate t host h).imp_right (.imp_right .inr)

private theorem inTurn_nil : InTurn [] := by
  refine .of_idle rfl ?_ (fun _ ↦ .inl rfl) ?_
  · rintro _ _ ⟨⟩
  · rintro _ _ ⟨_, ⟨⟩⟩

private theorem InTurn.answersOf_eq_nil (hp : InTurn past) (ht : past.length ≤ t) :
    answersOf t past = [] := by
  rcases hp.answered t with h | ⟨host, answer, -, hgranted⟩
  · exact h
  · exact absurd hgranted.lt (Nat.not_lt.2 ht)

/-- Where no answer is handed over, no start gets one. -/
theorem InTurn.answered_cons (hp : InTurn past) (hx : x.mark.told? = none) (t : Nat) :
    answersOf t (x :: past) = [] ∨
      ∃ host answer, answersOf t (x :: past) = [(host, answer)] ∧ IsGranted t host (x :: past) := by
  rw [answersOf_cons t hx]
  refine (hp.answered t).imp_right ?_
  rintro ⟨host, answer, hanswers, hgranted⟩
  exact ⟨host, answer, hanswers, hgranted.cons x⟩

/-- A start is granted where there is no errand. -/
theorem InTurn.granted (hp : InTurn past) (hidle : errand past = .none) (hpaid : owed past = none)
    {port : Int} (hx : x.mark = .asked (.start host port) (.accepted true)) :
    InTurn (x :: past) := by
  obtain ⟨mark, inFlight⟩ := x
  obtain rfl : mark = _ := hx
  refine ⟨?_, ?_, ?_, ?_, hp.answered_cons rfl, fun t host' hgranted ↦ ?_⟩
  · rintro _ _ ⟨⟩
    refine ⟨isGranted_cons.2 (.inl ⟨rfl, port, rfl⟩), rfl, ?_, ?_⟩
    · rw [answersOf_cons _ rfl]
      exact hp.answersOf_eq_nil (Nat.le_refl _)
    · rintro (⟨-, _, ⟨⟩⟩ | h)
      exact Nat.lt_irrefl _ h.lt
  · rintro _ _ _ ⟨⟩
  · rintro _ _ _ ⟨⟩
  · rintro _ _ ⟨⟩
  · rcases isGranted_cons.1 hgranted with ⟨rfl, port', hmark⟩ | hbefore
    · cases hmark
      exact .inr (.inr (.inl rfl))
    · rcases hp.fate t host' hbefore with h | ⟨answer, h⟩ | h | ⟨answer, h, -⟩
      · exact .inl (.inr h)
      · exact .inr (.inl ⟨answer, (answersOf_cons t rfl).trans h⟩)
      · cases hidle ▸ h
      · cases hpaid.symm.trans h

/-- The owner gives up. -/
theorem InTurn.cancelled (hp : InTurn past) {a : InquiryAnswer} (hx : x.mark = .asked .cancel a) :
    InTurn (x :: past) := by
  obtain ⟨mark, inFlight⟩ := x
  obtain rfl : mark = _ := hx
  refine .of_idle rfl ?_ (hp.answered_cons rfl) fun t host hgranted ↦ .inl (.inl ?_)
  · rintro _ _ ⟨⟩
  · rcases isGranted_cons.1 hgranted with ⟨-, _, ⟨⟩⟩ | hbefore
    exact ⟨hbefore.lt, a, rfl⟩

/-- Nothing becomes of the starts by what is neither a start nor the end of one, as long as the
errand is for the same start. -/
theorem InTurn.goesOn (hp : InTurn past) (hpaid : owed past = none)
    (hgrant : ∀ host port, x.mark ≠ .asked (.start host port) (.accepted true))
    (hcancel : ∀ a, x.mark ≠ .asked .cancel a) (htold : x.mark.told? = none)
    (howed : owed (x :: past) = none) (hlast : lastStart? (x :: past) = lastStart? past)
    (hstart : (errand (x :: past)).start? = (errand past).start?)
    (hpending : ∀ t k host, errand (x :: past) = .pending t k host →
      startOf? k (x :: past) = some t)
    (hstuck : ∀ t k host, errand (x :: past) = .stuck t k host →
      startOf? k (x :: past) = some t ∧
        .befell (.lookupFailed k true) ∈ (x :: past).map (·.mark)) : InTurn (x :: past) := by
  have hgivenUp (t : Nat) : IsGivenUp t (x :: past) ↔ IsGivenUp t past :=
    or_iff_right fun h ↦ h.2.elim hcancel
  have hgranted (t : Nat) (host : String) :
      IsGranted t host (x :: past) ↔ IsGranted t host past :=
    isGranted_cons.trans (or_iff_right fun h ↦ h.2.elim (hgrant host))
  refine ⟨fun t host ↦ ?_, hpending, hstuck, ?_, hp.answered_cons htold, fun t host ↦ ?_⟩
  · rw [hstart, hgranted, hlast, hgivenUp, answersOf_cons t htold]
    exact hp.current t host
  · rw [howed]
    rintro _ _ ⟨⟩
  · rw [hstart, hgranted, hgivenUp, answersOf_cons t htold, howed]
    intro h
    have hfate := hp.fate t host h
    rw [hpaid] at hfate
    simpa using hfate

/-- Where an answer is owed, it is to the lookup that has just ended, and nothing is left. -/
theorem exists_of_owed (howed : owed past = some (host, answer)) :
    errand past = .none ∧ ∃ e inFlight t k before, past = ⟨.befell e, inFlight⟩ :: before ∧
      errand before = .pending t k host ∧ e.lookup? = some k ∧ e.answer? host = some answer := by
  cases past with
  | nil => cases howed
  | cons x before =>
    obtain ⟨mark, inFlight⟩ := x
    cases mark with
    | befell e =>
      change (errand before).answer? e = some (host, answer) at howed
      cases hd : errand before with
      | pending t k host' =>
        simp only [hd, Errand.answer?, Option.ite_none_right_eq_some, Option.map_eq_some_iff,
          Prod.mk.injEq] at howed
        obtain ⟨hk, _, hanswer, rfl, rfl⟩ := howed
        refine ⟨?_, e, inFlight, t, k, before, rfl, hd, hk, hanswer⟩
        rw [errand_befell_of_pending hd hk, hanswer]
        rfl
      | _ => simp [hd, Errand.answer?] at howed
    | _ => cases howed

/-- The answer that is owed is handed over. -/
theorem InTurn.told (hp : InTurn past) (howed : owed past = some (host, answer))
    (hx : x.mark = .told host answer) : InTurn (x :: past) := by
  obtain ⟨mark, inFlight⟩ := x
  obtain rfl : mark = _ := hx
  obtain ⟨hidle, -⟩ := exists_of_owed howed
  obtain ⟨start, hcause, hgranted, hnone, -⟩ := hp.due host answer howed
  have hanswers (t : Nat) : answersOf t (⟨.told host answer, inFlight⟩ :: past) =
      if t = start then [(host, answer)] else answersOf t past := by
    simp only [answersOf, hcause, Option.some.injEq, eq_comm (a := start)]
    split
    · subst t
      rw [hnone]
      rfl
    · exact List.append_nil _
  refine .of_idle hidle ?_ (fun t ↦ ?_) fun t host' hgranted' ↦ ?_
  · rintro _ _ ⟨⟩
  · rw [hanswers]
    split
    · subst t
      exact .inr ⟨host, answer, rfl, hgranted.cons _⟩
    · refine (hp.answered t).imp_right ?_
      rintro ⟨host', answer', hbefore, hgranted'⟩
      exact ⟨host', answer', hbefore, hgranted'.cons _⟩
  · rcases isGranted_cons.1 hgranted' with ⟨-, _, ⟨⟩⟩ | hbefore
    rcases hp.fate t host' hbefore with h | ⟨answer', h⟩ | h | ⟨answer', h, hcause'⟩
    · exact .inl (.inr h)
    · refine .inr (.inl ⟨answer', ?_⟩)
      rw [hanswers, if_neg, h]
      rintro rfl
      cases hnone.symm.trans h
    · cases hidle ▸ h
    · cases hcause.symm.trans hcause'
      cases howed.symm.trans h
      exact .inr (.inl ⟨answer, by rw [hanswers, if_pos rfl]⟩)

/-- Only an error that does not come from the operating system leaves a lookup without an answer. -/
theorem eq_of_unanswered (hk : e.lookup? = some k) (hanswer : e.answer? host = none) :
    e = .lookupFailed k true := by
  cases e with
  | resolved j addresses => cases addresses <;> cases hanswer
  | lookupFailed j foreign =>
    cases hk
    cases foreign
    · cases hanswer
    · rfl
  | _ => cases hk

/-- The lookup of the errand is answered. -/
theorem InTurn.ended (hp : InTurn past) (hpaid : owed past = none)
    (hd : errand past = .pending t k host) (hk : e.lookup? = some k)
    (hanswer : e.answer? host = some answer) (hx : x.mark = .befell e) : InTurn (x :: past) := by
  obtain ⟨mark, inFlight⟩ := x
  obtain rfl : mark = _ := hx
  have hidle : errand (⟨.befell e, inFlight⟩ :: past) = .none := by
    rw [errand_befell_of_pending hd hk, hanswer]
    rfl
  have howed : owed (⟨.befell e, inFlight⟩ :: past) = some (host, answer) := by
    simp [owed, hd, Errand.answer?, hk, hanswer]
  have hcause : cause? (⟨.befell e, inFlight⟩ :: past) = some t := by
    simp [cause?, hk, hp.pending t k host hd]
  obtain ⟨hgranted, -, hnone, hwanted⟩ := hp.current t host (congrArg Errand.start? hd)
  refine .of_idle hidle (fun host' answer' h ↦ ?_) (hp.answered_cons rfl)
    fun t' host' hgranted' ↦ ?_
  · cases howed.symm.trans h
    refine ⟨t, hcause, hgranted.cons _, (answersOf_cons t rfl).trans hnone, ?_⟩
    rintro (⟨-, _, ⟨⟩⟩ | h)
    exact hwanted h
  · rcases isGranted_cons.1 hgranted' with ⟨-, _, ⟨⟩⟩ | hbefore
    rcases hp.fate t' host' hbefore with h | ⟨answer', h⟩ | h | ⟨answer', h, -⟩
    · exact .inl (.inr h)
    · exact .inr (.inl ⟨answer', (answersOf_cons t' rfl).trans h⟩)
    · rw [hd] at h
      cases h
      exact .inr (.inr ⟨answer, howed, hcause⟩)
    · cases hpaid.symm.trans h

/-- Nothing but the end of the errand's lookup on the network matters. -/
theorem InTurn.befell (hp : InTurn past) (hpaid : owed past = none) (e : Event) (inFlight : Bool) :
    InTurn (⟨.befell e, inFlight⟩ :: past) := by
  rcases apart_or_pending (errand past) e with hapart | ⟨t, k, host, hd, hk⟩
  · have herrand := errand_befell_of_apart hapart inFlight
    refine hp.goesOn hpaid (by simp) (by simp) rfl (Errand.answer?_of_apart hapart) rfl ?_ ?_ ?_
    · rw [herrand]
    · rw [herrand]
      exact hp.pending
    · rw [herrand]
      intro t k host h
      obtain ⟨hstart, hfailed⟩ := hp.stuck t k host h
      exact ⟨hstart, List.mem_cons_of_mem _ hfailed⟩
  · cases hanswer : e.answer? host with
    | some answer => exact hp.ended hpaid hd hk hanswer rfl
    | none =>
      have herrand : errand (⟨.befell e, inFlight⟩ :: past) = .stuck t k host := by
        rw [errand_befell_of_pending hd hk, hanswer]
        rfl
      have howed : owed (⟨.befell e, inFlight⟩ :: past) = none := by
        simp [owed, hd, Errand.answer?, hk, hanswer]
      refine hp.goesOn hpaid (by simp) (by simp) rfl howed rfl ?_ ?_ ?_
      · rw [herrand, hd]
        rfl
      · rw [herrand]
        rintro _ _ _ ⟨⟩
      · rw [herrand]
        rintro _ _ _ ⟨⟩
        rw [eq_of_unanswered hk hanswer]
        exact ⟨hp.pending t k host hd, List.mem_cons_self⟩

/-- The lookup of the errand starts. -/
theorem InTurn.began (hp : InTurn past) (hpaid : owed past = none) {port : Int}
    (hd : errand past = .wanted t host port) (hx : x.mark = .began k host port family) :
    InTurn (x :: past) := by
  obtain ⟨mark, inFlight⟩ := x
  obtain rfl : mark = _ := hx
  have herrand : errand (⟨.began k host port family, inFlight⟩ :: past) = .pending t k host := by
    rw [errand, hd]
    rfl
  refine hp.goesOn hpaid (by simp) (by simp) rfl rfl rfl ?_ ?_ ?_
  · rw [herrand, hd]
    rfl
  · rw [herrand]
    rintro _ _ _ ⟨⟩
    have hlast := (hp.current t host (congrArg Errand.start? hd)).2.1
    simpa [startOf?] using hlast
  · rw [herrand]
    rintro _ _ _ ⟨⟩

private theorem AllFit.inTurn (hfit : AllFit family online past) : InTurn past := by
  induction past with
  | nil => exact inTurn_nil
  | cons x past ih =>
    have hp := ih hfit.2
    obtain ⟨mark, inFlight⟩ := x
    have hquiet (h : mark.told? = none) : owed past = none := by
      rw [Option.eq_none_iff_forall_ne_some]
      rintro ⟨host, answer⟩ howed
      cases (hfit.1.told host answer).2 howed
      cases h
    cases mark with
    | asked c a =>
      have hpaid := hquiet rfl
      cases c with
      | cancel => exact hp.cancelled rfl
      | start host port =>
        obtain rfl := hfit.1.start host port a rfl
        cases hfree : online && !(errand past).isBusy with
        | true =>
          have hidle : errand past = .none := by
            cases hd : errand past with
            | none => rfl
            | _ => simp [hd, Errand.isBusy] at hfree
          exact hp.granted hidle hpaid rfl
        | false =>
          refine hp.goesOn hpaid (by simp) (by simp) rfl rfl rfl rfl hp.pending fun t k host h ↦ ?_
          obtain ⟨hstart, hfailed⟩ := hp.stuck t k host h
          exact ⟨hstart, List.mem_cons_of_mem _ hfailed⟩
    | began k host port f =>
      obtain ⟨-, ⟨t, hd⟩, -⟩ := hfit.1.began k host port f rfl
      exact hp.began (hquiet rfl) hd rfl
    | befell e => exact hp.befell (hquiet rfl) e inFlight
    | told host answer => exact hp.told ((hfit.1.told host answer).1 rfl) rfl

/-- No start that was given up is answered any more. -/
theorem answersOf_of_isGivenUp (hfit : AllFit family online (later ++ past))
    (hup : IsGivenUp t past) : answersOf t (later ++ past) = answersOf t past := by
  induction later with
  | nil => rfl
  | cons x later ih =>
    rw [← ih hfit.2]
    cases hx : x.mark.told? with
    | none => exact answersOf_cons t hx
    | some told =>
      obtain ⟨host, answer⟩ := told
      have hmark : x.mark = .told host answer := by
        obtain ⟨mark, inFlight⟩ := x
        cases mark <;> cases hx
        rfl
      obtain ⟨start, hcause, -, -, hwanted⟩ :=
        hfit.2.inTurn.due host answer ((hfit.1.told host answer).1 hmark)
      have hne : cause? (later ++ past) ≠ some t := by
        intro h
        cases hcause.symm.trans h
        exact hwanted (hup.append later)
      simp [answersOf, hne]

/-- An answer that was handed over stays the only one. -/
theorem answersOf_of_answered (hfit : AllFit family online (later ++ past))
    (h : answersOf t past = [(host, answer)]) :
    answersOf t (later ++ past) = [(host, answer)] := by
  have hinitial : answersOf t past <+: answersOf t (later ++ past) := by
    clear hfit
    induction later with
    | nil => exact List.prefix_rfl
    | cons x later ih => exact ih.trans (List.prefix_append _ _)
  rw [h] at hinitial
  rcases hfit.inTurn.answered t with hnone | ⟨host', answer', hone, -⟩
  · rw [hnone] at hinitial
    cases List.prefix_nil.1 hinitial
  · rw [hone] at hinitial ⊢
    exact (hinitial.eq_of_length rfl).symm

/-- A lookup that was given up is not that of the errand. -/
theorem lookup?_ne_of_isGivenUp (hp : InTurn past) (hstart : startOf? k past = some t)
    (hup : IsGivenUp t past) : (errand past).lookup? ≠ some k := by
  cases hd : errand past with
  | pending start j host =>
    rintro ⟨⟩
    cases (hp.pending start k host hd).symm.trans hstart
    exact (hp.current t host (congrArg Errand.start? hd)).2.2.2 hup
  | _ => rintro ⟨⟩

/-! ### Runs -/

private theorem story_append (q : Inquiry) (steps rest : List (List InquiryCall × Step)) :
    q.story (steps ++ rest) = (q.run steps).story rest ++ q.story steps := by
  induction steps generalizing q with
  | nil => exact (List.append_nil _).symm
  | cons s steps ih =>
    simp only [List.cons_append, story, ih, List.append_assoc]
    rfl

/-- After a step nothing is about to start. -/
theorem queue_step (hqueue : q.network.queue = []) (calls : List InquiryCall) (s : Step) :
    (q.step calls s).2.network.queue = [] := by
  cases s with
  | call c => exact queue_settle _
  | network e =>
    simp only [Inquiry.step]
    split
    · exact queue_settle _
    · exact (queue_receive q.network e).trans hqueue

private theorem queue_run (hqueue : q.network.queue = []) (steps : List (List InquiryCall × Step)) :
    (q.run steps).network.queue = [] := by
  induction steps generalizing q with
  | nil => exact hqueue
  | cons s rest ih => exact ih (queue_step hqueue s.1 s.2)

/-- An owner that is handed an answer finds the resolver free, and a start that it makes at once is
granted. -/
theorem Tracks.step_of_answer (hq : Tracks family online past q)
    (hd : errand past = .pending t k host) (hk : e.lookup? = some k)
    (hanswer : e.answer? host = some answer) (calls : List InquiryCall) :
    (∃ later, q.moments calls (.network e) =
      later ++ [⟨.told host answer, false⟩, ⟨.befell e, false⟩]) ∧
    ∃ others, (q.step calls (.network e)).1.entries = .heard host answer false :: others ∧
      ∀ host' port rest, calls = .start host' port :: rest →
        others.head? = some (.called (.start host' port) (.accepted online)) := by
  have hrests := hq.rests
  rw [hd] at hrests
  have hreceive := receive_of_pending hrests.lookup hk
  simp only [moments, Inquiry.step, hear, hreceive, hanswer, Option.map_some]
  refine ⟨⟨_, rfl⟩, _, rfl, ?_⟩
  rintro host' port rest rfl
  simp only [Inquiry.callAll, Inquiry.call, Resolver.start?, Resolver.idle, hq.isOnline]
  cases online <;> rfl

/-- A resolver answers in turn. Whatever its owner does, also when it is handed an answer, and
however lookups end, in any order: what takes place in a step is what its result shows; every moment
is right, so that a start is granted just where none is under way and an answer handed over just
where it is due; no two lookups are pending; a start has one answer at most, and none if it was
refused; none comes after the owner gave up; and the end of a lookup that was given up changes
nothing at all. -/
theorem answers_in_turn (family : Family) (online : Bool)
    (steps : List (List InquiryCall × Step)) :
    let q : Inquiry := { online, network := { family } }
    let last := q.run steps
    (∀ done calls s rest, steps = done ++ (calls, s) :: rest →
      entriesOf ((q.run done).moments calls s) = ((q.run done).step calls s).1.entriesOf s ∧
        seenOf ((q.run done).moments calls s) = ((q.run done).step calls s).1.seen) ∧
    last.resolver.inFlight = (errand (q.story steps)).isBusy ∧
    (∀ later x past, q.story steps = later ++ x :: past → x.Fits family online past) ∧
    (∀ (j k : Nat) (a b : Lookup), last.network.lookups[j]? = some a →
      last.network.lookups[k]? = some b → a.pending = true → b.pending = true → j = k) ∧
    (∀ t, answersOf t (q.story steps) = [] ∨ ∃ host answer,
      answersOf t (q.story steps) = [(host, answer)] ∧ IsGranted t host (q.story steps)) ∧
    (∀ later host answer inFlight past,
      q.story steps = later ++ ⟨.told host answer, inFlight⟩ :: past →
      ∃ t, answersOf t past = [] ∧
        answersOf t (⟨.told host answer, inFlight⟩ :: past) = [(host, answer)]) ∧
    (∀ t later past, q.story steps = later ++ past → IsGivenUp t past →
      answersOf t (q.story steps) = answersOf t past) ∧
    ∀ t k calls e, startOf? k (q.story steps) = some t → IsGivenUp t (q.story steps) →
      e.lookup? = some k →
        ∃ outcome, last.step calls (.network e) = (⟨.network outcome, [], []⟩, last) := by
  intro q last
  have hall : Tracks family online (q.story steps) last := by
    simpa using (tracks_fresh family online).run steps
  have hsuffix {later past} (heq : q.story steps = later ++ past) : AllFit family online past :=
    AllFit.of_append (heq ▸ hall.fits)
  refine ⟨?_, hall.rests.inFlight_eq, ?_, ?_, hall.fits.inTurn.answered, ?_, ?_, ?_⟩
  · rintro done calls s rest rfl
    have hbefore : Tracks family online (q.story done) (q.run done) := by
      simpa using (tracks_fresh family online).run done
    exact hbefore.shows calls s
  · intro later x past heq
    exact (hsuffix heq).1
  · intro j k a b ha hb hapending hbpending
    have hj := hall.rests.pends j a ha hapending
    have hk := hall.rests.pends k b hb hbpending
    exact Option.some.inj (hj.symm.trans hk)
  · intro later host answer inFlight past heq
    have hfit := hsuffix heq
    obtain ⟨t, hcause, -, hnone, -⟩ :=
      hfit.2.inTurn.due host answer ((hfit.1.told host answer).1 rfl)
    refine ⟨t, hnone, ?_⟩
    simp [answersOf, hcause, hnone, Mark.told?]
  · intro t later past heq hup
    have hfit := hall.fits
    rw [heq] at hfit ⊢
    exact answersOf_of_isGivenUp hfit hup
  · intro t k calls e hstart hup hk
    refine (hall.step_of_apart calls fun j hj ↦ ?_).1
    cases hk.symm.trans hj
    exact lookup?_ne_of_isGivenUp hall.fits.inTurn hstart hup

/-- A host is looked up and given up, and another one is looked up then; the first lookup ends
late. -/
def changedMind : List (List InquiryCall × Step) := List.map (Prod.mk []) [
  .call (.start "a" 1), .call .cancel, .call (.start "b" 2), .network (.resolved 0 ["10.0.0.5"])]

example : let q : Inquiry := {}
    answersOf 0 (q.story changedMind) = [] ∧ (q.run changedMind).resolver.inFlight = true := by
  decide +kernel

/-- Every start is answered. One that was granted has its answer already, unless the owner gave up
since; otherwise its lookup was made, and has failed by an error that does not come from the
operating system, or is answered as soon as it ends, by the first address or else a failure. The
owner finds the resolver free then. -/
theorem start_is_answered (family : Family) (online : Bool)
    (steps : List (List InquiryCall × Step)) (t : Nat) (host : String)
    (hgranted :
      IsGranted t host (({ online, network := { family } } : Inquiry).story steps)) :
    let q : Inquiry := { online, network := { family } }
    IsGivenUp t (q.story steps) ∨
    (∃ answer, answersOf t (q.story steps) = [(host, answer)]) ∨
    answersOf t (q.story steps) = [] ∧ ∃ k, startOf? k (q.story steps) = some t ∧
      (.befell (.lookupFailed k true) ∈ (q.story steps).map (·.mark) ∨
        ∀ calls e answer, e.lookup? = some k → e.answer? host = some answer →
          answersOf t (q.story (steps ++ [(calls, .network e)])) = [(host, answer)] ∧
          ∃ others, ((q.run steps).step calls (.network e)).1.entries =
              .heard host answer false :: others ∧
            ∀ host' port rest, calls = .start host' port :: rest →
              others.head? = some (.called (.start host' port) (.accepted online))) := by
  intro q
  have hall : Tracks family online (q.story steps) (q.run steps) := by
    simpa using (tracks_fresh family online).run steps
  have hp := hall.fits.inTurn
  rcases hp.fate t host hgranted with h | h | h | ⟨answer, h, -⟩
  · exact .inl h
  · exact .inr (.inl h)
  · refine .inr (.inr ⟨(hp.current t host h).2.2.1, ?_⟩)
    cases hd : errand (q.story steps) with
    | none => cases hd ▸ h
    | wanted start host' port =>
      have hrests := hall.rests
      rw [hd] at hrests
      cases hrests with
      | wanted _ queue => cases (queue_run rfl steps).symm.trans queue
    | pending start k host' =>
      rw [hd] at h
      cases h
      refine ⟨k, hp.pending t k host hd, .inr fun calls e answer hk hanswer ↦ ?_⟩
      obtain ⟨⟨later, hlater⟩, hentries⟩ := hall.step_of_answer hd hk hanswer calls
      refine ⟨?_, hentries⟩
      have hstory : q.story (steps ++ [(calls, .network e)]) =
          later ++ ⟨.told host answer, false⟩ :: ⟨.befell e, false⟩ :: q.story steps := by
        simp [story_append, story, hlater]
      have hfit : AllFit family online (q.story (steps ++ [(calls, .network e)])) := by
        simpa using ((tracks_fresh family online).run (steps ++ [(calls, .network e)])).fits
      rw [hstory] at hfit ⊢
      apply answersOf_of_answered hfit
      have hcause : cause? (⟨.befell e, false⟩ :: q.story steps) = some t := by
        simp [cause?, hk, hp.pending t k host hd]
      have hnone := (hp.current t host (congrArg Errand.start? hd)).2.2.1
      rw [answersOf, if_pos hcause, answersOf_cons t rfl, hnone]
      rfl
    | stuck start k host' =>
      rw [hd] at h
      cases h
      obtain ⟨hstart, hfailed⟩ := hp.stuck t k host hd
      exact ⟨k, hstart, .inl hfailed⟩
  · exact absurd h (hall.not_owed host answer)

/-- The lookup that took the place of the other one is answered, and a start from within is granted.
-/
theorem start_is_answered_changedMind :
    let q : Inquiry := {}
    let calls := [InquiryCall.start "c" 3]
    IsGranted 3 "b" (q.story changedMind) ∧
      answersOf 3 (q.story (changedMind ++ [(calls, .network (.resolved 1 []))])) =
        [("b", .failure "No addresses for b")] ∧
      ((q.run changedMind).step calls (.network (.resolved 1 []))).1.entries =
        [.heard "b" (.failure "No addresses for b") false,
          .called (.start "c" 3) (.accepted true)] := by
  intro q calls
  have hgranted : IsGranted 3 "b" (q.story changedMind) := ⟨2, by decide +kernel⟩
  have hkept : ¬ IsGivenUp 3 (q.story changedMind) := by decide +kernel
  have hnone : answersOf 3 (q.story changedMind) = [] := by decide +kernel
  have hfirst : startOf? 0 (q.story changedMind) = some 0 := by decide +kernel
  have hlookups : (q.run changedMind).network.lookups.length = 2 := by decide +kernel
  rcases start_is_answered .inet true changedMind 3 "b" hgranted with
    h | ⟨answer, h⟩ | ⟨-, k, hk, h⟩
  · exact absurd h hkept
  · cases hnone.symm.trans h
  · have hall := (tracks_fresh .inet true).run changedMind
    have hlt : k < (q.run changedMind).network.lookups.length :=
      (hall.begun k).1 (hasBegun_of_startOf? (by simpa using hk))
    rw [hlookups] at hlt
    have hne : k ≠ 0 := by
      rintro rfl
      cases hfirst.symm.trans hk
    obtain rfl : k = 1 := by omega
    rcases h with h | h
    · have hnever : Mark.befell (.lookupFailed 1 true) ∉ (q.story changedMind).map (·.mark) := by
        decide +kernel
      exact absurd h hnever
    · obtain ⟨hanswers, -⟩ := h calls (.resolved 1 []) _ rfl rfl
      exact ⟨hgranted, hanswers, by decide +kernel⟩

/-- The lookup of a start fails by an error that does not come from the operating system. -/
def stranded : List (List InquiryCall × Step) := List.map (Prod.mk []) [
  .call (.start "a" 1), .network (.lookupFailed 0 true)]

/-- Such a lookup came to its end, and the start has no answer; the resolver stays busy, and refuses
other starts, though nothing is pending. -/
theorem start_unanswered_stranded :
    let q : Inquiry := {}
    IsGranted 0 "a" (q.story stranded) ∧ ¬ IsGivenUp 0 (q.story stranded) ∧
      startOf? 0 (q.story stranded) = some 0 ∧
      (q.run stranded).network.lookups = [{ host := "a", pending := false }] ∧
      answersOf 0 (q.story stranded) = [] ∧
      (q.run stranded).resolver.inFlight = true ∧
      ((q.run stranded).call (.start "b" 1)).1 = .accepted false := by
  intro q
  have hgranted : IsGranted 0 "a" (q.story stranded) := ⟨1, by decide +kernel⟩
  exact ⟨hgranted, by decide +kernel⟩

end Rendezvous.Network.Inquiry
