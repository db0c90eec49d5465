import Rendezvous.Proofs.Session.Record.Steps

/-!
# The record of a run is in order

Every step of a lawful run keeps what the record tells of the session, and so the record of a whole
run is in order. What has to come next in it has come, since nothing is left to come between steps.
-/

namespace Rendezvous

namespace Record

variable {config : Config} {m : Machine} {past : List Entry} {o : Observer} {depth : Nat}
  {tell : Event → SessionM Unit}

open SessionM Machine

private theorem shares_noted (s : Step) (reply : Reply) : Shares (s.noted reply m) m := by
  cases s <;> cases reply <;> exact ⟨rfl, rfl, rfl⟩

private theorem phaseOf_noted (s : Step) (reply : Reply) (k : Nat) :
    m.host.phaseOf k = (s.noted reply m).host.phaseOf k := by
  cases s <;> cases reply <;> rfl

/-- What was noted of an answer is in the record and not in the session. -/
theorem Rests.of_noted {s : Step} {reply : Reply} (h : Rests config past (s.noted reply m)) :
    Kept config False (.rest m.session :: past) m := by
  have hkept : Kept config False (.rest (s.noted reply m).session :: past) (s.noted reply m) := h
  rw [session_noted] at hkept
  apply hkept.congr (shares_noted s reply) (phaseOf_noted s reply)
  rw [session_noted]
  exact .refl _

private theorem Ready.at (h : Ready config past m) : At m past (Kept config False) m where
  later := Nat.le_refl _
  holds := by
    rw [storyAt_self _ rfl]
    exact h.kept

/-- Whatever happens in a step, the record is in order where the step ends. -/
theorem rests_step (htell : Tells config tell) (h : Ready config past m) {s : Step}
    (hs : s.IsLawful m) :
    Ensures (Machine.react tell s) m
      (fun reply after ↦ At m (s.events m ++ past) (Rests config) (s.noted reply after))
      (At m (s.events m ++ past) (Rests config)) := by
  have hsame {after : Machine} (hkept : At m past (Kept config False) after) :
      At m past (Rests config) after := hkept.imp fun _ ↦ Kept.rests
  have hgrant {after : Machine} (hafter : ∃ policy,
      after = { m with host := { m.host with policy } }) : At m past (Rests config) after := by
    obtain ⟨policy, rfl⟩ := hafter
    exact hsame (h.at.same rfl fun _ hkept ↦
      hkept.congr ⟨rfl, rfl, rfl⟩ (fun _ ↦ rfl) (.refl _))
  cases s with
  | call c =>
    simp only [Machine.react, ensures_bind, ensures_pure]
    exact (kept_perform htell h.at c).mono (fun _ _ ↦ hsame) fun _ ↦ hsame
  | observe =>
    simp only [Machine.react, ensures_bind, ensures_get, ensures_ite, ensures_throw,
      ensures_modify, ensures_pure]
    exact ⟨fun _ ↦ hsame h.at, fun hnot ↦ absurd h.kept.observed hnot⟩
  | answer ip =>
    simp only [Machine.react, ensures_bind, ensures_get, ensures_ite, ensures_pure]
    exact ⟨fun _ ↦ (kept_onLookup htell h.at ip).rests, fun _ ↦ hsame h.at⟩
  | lateAnswer ip =>
    simp only [Machine.react, ensures_bind, ensures_pure]
    exact (kept_onAnswer htell h.at ip).rests
  | fire timer =>
    simp only [Machine.react, ensures_bind, ensures_get, ensures_ite, ensures_pure]
    exact ⟨fun _ ↦ (kept_onTimer htell h.at timer).rests, fun _ ↦ hsame h.at⟩
  | socket ref e =>
    simp only [Machine.react, ensures_bind, ensures_get]
    rw [Step.events]
    cases hfound : m.find? ref with
    | none => exact ensures_pure.2 (hsame h.at)
    | some k =>
      simp only [ensures_bind, ensures_pure]
      exact rests_onSocket htell h (hs k hfound)
  | accept role granted =>
    simp only [Machine.react, ensures_bind, ensures_modify, ensures_pure]
    exact hgrant ⟨_, rfl⟩
  | sendable role granted =>
    simp only [Machine.react, ensures_bind, ensures_modify, ensures_pure]
    exact hgrant ⟨_, rfl⟩
  | resolvable granted =>
    simp only [Machine.react, ensures_bind, ensures_modify, ensures_pure]
    exact hgrant ⟨_, rfl⟩

/-- The record tells of the session again after a lawful step. -/
theorem Ready.step (ho : o.IsSteady config) (h : Ready config past m) {s : Step}
    (hs : s.IsLawful m) :
    Ready config (.rest (m.step o depth s).2.session :: storyAt m (s.events m ++ past)
      (s.noted (m.step o depth s).1 (m.step o depth s).2)) (m.step o depth s).2 where
  kept := by
    have hnoted : At m (s.events m ++ past) (Rests config)
        (s.noted (m.step o depth s).1 (m.step o depth s).2) := by
      have hrests := rests_step (tells_tell config o depth) h hs
      rcases hrests.runWith_cases with hdone | ⟨⟨f, hf⟩, hleft⟩
      · exact hdone
      · have hreply : (m.step o depth s).1 = .fault f := hf
        rw [hreply]
        cases s <;> exact hleft
    exact hnoted.holds.of_noted
  stands := (stands_step (steady_tell ho False.elim depth) h.stands hs False.elim).runWith
  rested := ⟨_, rfl⟩

/-- The record of a lawful run tells of the session at its end. -/
theorem Ready.run (ho : o.IsSteady config) (h : Ready config past m) {steps : List Step}
    (hlawful : m.IsLawful o depth steps) :
    Ready config (m.recordFrom o depth past steps) (run o depth m steps) := by
  induction steps generalizing m past with
  | nil => exact h
  | cons s rest ih => exact ih (h.step ho hlawful.1) hlawful.2

private theorem ready_fresh (config : Config) (policy : Policy) :
    Ready config [.rest (fresh config true policy).session] (fresh config true policy) where
  kept := by
    have hrecorded : Recorded config [] (fresh config true policy) :=
      ⟨rfl, rfl, trivial, fun x ↦ ⟨fun _ _ _ heq ↦ (by cases heq), fun _ _ _ heq ↦ (by cases heq),
        fun _ _ _ heq ↦ (by cases heq)⟩, fun _ ↦ rfl⟩
    have hkept : Kept config False [] (fresh config true policy) :=
      hrecorded.kept rfl rfl fun hphase ↦ by cases hphase
    exact hkept.rests
  stands := stands_fresh config true policy
  rested := ⟨[], rfl⟩

/-- After every lawful run the record tells of the session as it is. -/
theorem ready_record (config : Config) (policy : Policy) (ho : o.IsSteady config)
    {steps : List Step} (hlawful : (fresh config true policy).IsLawful o depth steps) :
    Ready config ((fresh config true policy).record o depth steps)
      (run o depth (fresh config true policy) steps) :=
  (ready_fresh config policy).run ho hlawful

/-! ### Reading a record that is in order -/

variable {roles : List Role} {limit : Option Int} {story later : List Entry} {x : Entry} {k : Nat}

/-- The earlier part of a record that is in order is in order. -/
theorem IsInOrder.of_append (h : IsInOrder roles limit (later ++ past)) :
    IsInOrder roles limit past := by
  induction later with
  | nil => exact h
  | cons x later ih => exact ih h.2

/-- In a record that is in order every entry is in its place. -/
theorem IsInOrder.inPlace (h : IsInOrder roles limit story) (heq : story = later ++ x :: past) :
    InPlace roles limit x past := by
  subst heq
  exact h.of_append.1

/-- Where something has to come next, something has come. -/
theorem IsInOrder.next (h : IsInOrder roles limit story) (hsettled : IsSettled limit story)
    (heq : story = later ++ past) (hpast : ¬ IsSettled limit past) :
    ∃ rest y, later = rest ++ [y] ∧ InPlace roles limit y past := by
  subst heq
  rcases List.eq_nil_or_concat later with rfl | ⟨rest, y, rfl⟩
  · exact absurd hsettled hpast
  · have heq : rest.concat y ++ past = rest ++ y :: past := by simp
    exact ⟨rest, y, List.concat_eq_append, h.inPlace heq⟩

/-- Only a dial opens a socket. -/
theorem InPlace.isOpen (h : InPlace roles limit x past) (hdials : x.dials k = false)
    (hopen : phaseIn k (x :: past) ≠ .closed) : phaseIn k past ≠ .closed := by
  intro hclosed
  apply hopen
  rw [phaseIn_cons, hclosed]
  rcases x with ⟨j, e⟩ | ⟨a | n⟩ | s
  · rw [Entry.moves]
    split
    · next hk =>
      subst hk
      have hpermits := h.event j e rfl
      rw [hclosed] at hpermits
      cases e with
      | connected => cases hpermits
      | received bytes => cases hpermits
      | closed code => rfl
    · rfl
  · cases a with
    | connect j address =>
      show (if j = k then _ else _) = _
      rw [if_neg (of_decide_eq_false hdials)]
    | close j => exact ite_self _
    | _ => rfl
  · rfl
  · rfl

/-- A socket that is not closed was dialled. -/
theorem IsInOrder.exists_dial (h : IsInOrder roles limit past) (hopen : phaseIn k past ≠ .closed) :
    ∃ address before, past = since k past ++ .dial k address :: before := by
  induction past with
  | nil => exact absurd rfl hopen
  | cons x past ih =>
    rw [since_cons]
    cases hdials : x.dials k with
    | false =>
      obtain ⟨address, before, heq⟩ := ih h.2 (h.1.isOpen hdials hopen)
      refine ⟨address, before, ?_⟩
      rw [if_neg Bool.false_ne_true, List.cons_append, ← heq]
    | true =>
      obtain ⟨address, rfl⟩ := Entry.exists_dial hdials
      exact ⟨address, past, rfl⟩

/-- Nothing that came since a connection was dialled dials it. -/
theorem dials_of_mem_since {y : Entry} (h : y ∈ since k past) : y.dials k = false := by
  induction past with
  | nil => cases h
  | cons x past ih =>
    rw [since_cons] at h
    cases hdials : x.dials k with
    | false =>
      rw [hdials, if_neg Bool.false_ne_true] at h
      rcases List.mem_cons.1 h with rfl | hmem
      · exact hdials
      · exact ih hmem
    | true =>
      rw [hdials, if_pos rfl] at h
      cases h

end Record

end Rendezvous
