import Rendezvous.Retry

/-!
# The live arming of a retry timer

The armings that a timer accepts are numbered in their order, and so are its handles. What is done
to a timer, by its owner and by the callbacks that run, is told as one story. An arming is live
while it is the latest that was accepted and has been neither cancelled nor fired since; that is
read off the story alone. A firing runs its callback just where its arming is live, however often
and however late handles fire.
-/

namespace Rendezvous.RetryTimer

/-! ### Deeds -/

/-- What is done to a timer, with the answer it gets. -/
inductive Deed where
  /-- The timer was armed, or that was refused. -/
  | armed (label : String) (callback : Plan) (accepted : Bool)
  | cancelled
  /-- A handle fired, and its callback ran or did not. -/
  | fired (handle : Nat) (ran : Bool)
  /-- A callback noted the answer to an arming of its own. -/
  | noted (accepted : Bool)
  deriving DecidableEq

/-- Whether a timer was set. -/
def Deed.isArming : Deed → Bool
  | .armed _ _ accepted => accepted
  | _ => false

/-- How many armings were accepted. -/
def armings (deeds : List Deed) : Nat := deeds.countP Deed.isArming

/-- Whether an arming is the latest that was accepted, and has been neither cancelled nor fired
since. The newest deed comes first. -/
def IsLive (deeds : List Deed) (k : Nat) : Prop :=
  ∃ later d past, deeds = later ++ d :: past ∧ d.isArming = true ∧ armings past = k ∧
    ∀ e ∈ later, e.isArming = false ∧ e ≠ .cancelled ∧ e ≠ .fired k true

section

variable {d : Deed} {past later : List Deed} {j k : Nat}

private theorem armings_cons (d : Deed) (past : List Deed) :
    armings (d :: past) = armings past + if d.isArming then 1 else 0 :=
  List.countP_cons

private theorem armings_le_append (later past : List Deed) :
    armings past ≤ armings (later ++ past) := by
  simp only [armings, List.countP_append]
  omega

private theorem not_isLive_nil : ¬ IsLive [] k := by
  rintro ⟨later, d, past, heq, -⟩
  simp at heq

/-- An arming comes to be live when it is accepted, and stays so until another deed ends it. -/
theorem isLive_cons : IsLive (d :: past) k ↔
    (d.isArming = true ∧ armings past = k) ∨
      (d.isArming = false ∧ d ≠ .cancelled ∧ d ≠ .fired k true ∧ IsLive past k) := by
  constructor
  · rintro ⟨later, a, before, heq, harming, hcount, hlater⟩
    cases later with
    | nil =>
      cases heq
      exact .inl ⟨harming, hcount⟩
    | cons e later =>
      cases heq
      obtain ⟨⟨hno, hcancel, hfire⟩, hlater⟩ := List.forall_mem_cons.1 hlater
      exact .inr ⟨hno, hcancel, hfire, later, a, before, rfl, harming, hcount, hlater⟩
  · rintro (⟨harming, hcount⟩ | ⟨hno, hcancel, hfire, later, a, before, rfl, h⟩)
    · exact ⟨[], d, past, rfl, harming, hcount, nofun⟩
    · obtain ⟨harming, hcount, hlater⟩ := h
      exact ⟨d :: later, a, before, rfl, harming, hcount,
        List.forall_mem_cons.2 ⟨⟨hno, hcancel, hfire⟩, hlater⟩⟩

private theorem IsLive.lt (h : IsLive past k) : k < armings past := by
  induction past with
  | nil => exact (not_isLive_nil h).elim
  | cons d past ih =>
    rw [armings_cons]
    rcases isLive_cons.1 h with ⟨harming, hcount⟩ | ⟨-, -, -, hpast⟩
    · simp only [harming, ↓reduceIte]
      omega
    · have := ih hpast
      omega

/-- One arming is live at most. -/
theorem IsLive.unique (hj : IsLive past j) (hk : IsLive past k) : j = k := by
  induction past with
  | nil => exact (not_isLive_nil hj).elim
  | cons d past ih =>
    rcases isLive_cons.1 hj with ⟨hd, hcount⟩ | ⟨hd, -, -, hj⟩ <;>
      rcases isLive_cons.1 hk with ⟨hd', hcount'⟩ | ⟨hd', -, -, hk⟩
    · omega
    · simp [hd] at hd'
    · simp [hd] at hd'
    · exact ih hj hk

/-- An arming that was accepted and is not live any more never is again. -/
theorem not_isLive_append (hmade : k < armings past) (hover : ¬ IsLive past k)
    (later : List Deed) : ¬ IsLive (later ++ past) k := by
  induction later with
  | nil => exact hover
  | cons d later ih =>
    intro h
    rcases isLive_cons.1 h with ⟨-, hcount⟩ | ⟨-, -, -, h⟩
    · have hle := armings_le_append later past
      exact Nat.lt_irrefl k (Nat.lt_of_lt_of_le hmade (hcount ▸ hle))
    · exact ih h

/-- Nothing is live once the live arming has fired. -/
theorem not_isLive_fired (h : IsLive past k) : ¬ IsLive (.fired k true :: past) j := by
  intro hj
  rcases isLive_cons.1 hj with ⟨hd, -⟩ | ⟨-, -, hne, hpast⟩
  · cases hd
  · exact hne (by rw [hpast.unique h])

private theorem not_isLive_cancelled : ¬ IsLive (.cancelled :: past) k := by
  intro h
  rcases isLive_cons.1 h with ⟨hd, -⟩ | ⟨-, hne, -⟩
  · cases hd
  · exact hne rfl

end

/-! ### Requests of a desk -/

/-- What is asked of a desk from outside. -/
inductive Request where
  | arm (label : String) (callback : Plan)
  | cancel
  | fire (handle : Nat)

namespace Desk

variable {d : Desk} {label : String} {callback : Plan} {k : Nat}

/-- Carries out a request. -/
def serve (d : Desk) : Request → Desk
  | .arm label callback => (d.arm label callback).2
  | .cancel => d.cancel
  | .fire k => (d.fire k).2

private theorem arm_of_idle (h : d.timer.live = none) (label : String) (callback : Plan) :
    d.arm label callback = (true, {
      timer := { d.timer with live := some d.handles.length }
      handles := d.handles ++ [(label, callback)]
      log := .scheduled d.handles.length d.timer.delay :: d.log }) := by
  simp [arm, arm?, isArmed, h]

private theorem arm_of_live (h : d.timer.live = some k) (label : String) (callback : Plan) :
    d.arm label callback = (false, d) := by
  simp [arm, arm?, isArmed, h]

end Desk

/-! ### Watching a desk -/

/-- A deed, and the desk as it stood before and after. -/
structure Moment where
  deed : Deed
  before : Desk
  after : Desk

/-- A desk, and the moments it went through, newest first. -/
structure Watch where
  desk : Desk
  story : List Moment := []

/-- What a deed does to a desk, after the deeds that came before. -/
def Moment.Fits (delay : Float) (m : Moment) (past : List Deed) : Prop :=
  (m.after.timer.isArmed = true ↔ ∃ k, IsLive (m.deed :: past) k) ∧
    match m.deed with
    | .armed label callback true =>
      (∀ k, ¬ IsLive past k) ∧ m.after.log = .scheduled (armings past) delay :: m.before.log ∧
        m.after.handles = m.before.handles ++ [(label, callback)]
    | .armed _ _ false => (∃ k, IsLive past k) ∧ m.after = m.before
    | .cancelled =>
      (∀ k, IsLive past k → m.after.log = .cancelled k :: m.before.log) ∧
        ((∀ k, ¬ IsLive past k) → m.after = m.before)
    | .fired k true =>
      IsLive past k ∧ m.after.timer.isArmed = false ∧ ∃ label callback,
        m.before.handles[k]? = some (label, callback) ∧ m.after.log = .fired label :: m.before.log
    | .fired k false => ¬ IsLive past k ∧ m.after = m.before
    | .noted accepted => m.after = { m.before with log := .chained accepted :: m.before.log }

/-- Whether every moment of a story does what its deed does there. -/
def AllFit (delay : Float) : List Moment → Prop
  | [] => True
  | m :: past => m.Fits delay (past.map Moment.deed) ∧ AllFit delay past

private theorem AllFit.of_append {delay : Float} {later past : List Moment}
    (h : AllFit delay (later ++ past)) : AllFit delay past := by
  induction later with
  | nil => exact h
  | cons m later ih => exact ih h.2

namespace Watch

/-- What was done to the timer. -/
def deeds (w : Watch) : List Deed := w.story.map Moment.deed

/-- A desk that nothing was asked of. -/
def fresh (delay : Float) : Watch := { desk := { timer := { delay } } }

/-- Enters a deed that leaves the desk as given. -/
def enter (w : Watch) (deed : Deed) (after : Desk) : Watch :=
  { desk := after, story := ⟨deed, w.desk, after⟩ :: w.story }

/-- Arms the timer. -/
def arm (w : Watch) (label : String) (callback : Plan) : Watch :=
  let (accepted, after) := w.desk.arm label callback
  w.enter (.armed label callback accepted) after

/-- Cancels the live arming. -/
def cancel (w : Watch) : Watch := w.enter .cancelled w.desk.cancel

/-- Notes the answer to an arming. -/
def note (w : Watch) (accepted : Bool) : Watch :=
  w.enter (.noted accepted) { w.desk with log := .chained accepted :: w.desk.log }

/-- Carries out what a callback does. -/
def follow (w : Watch) : Plan → Watch
  | .done => w
  | .arm label callback next =>
    ((w.arm label callback).note (w.desk.arm label callback).1).follow next
  | .cancel next => w.cancel.follow next

/-- Fires a handle. A number without a handle is passed over. -/
def fire (w : Watch) (k : Nat) : Watch :=
  match w.desk.handles[k]? with
  | none => w
  | some (label, callback) =>
    match w.desk.timer.fire? k with
    | none => w.enter (.fired k false) w.desk
    | some timer =>
      (w.enter (.fired k true)
        { w.desk with timer, log := .fired label :: w.desk.log }).follow callback

/-- Carries out a request. -/
def serve (w : Watch) : Request → Watch
  | .arm label callback => w.arm label callback
  | .cancel => w.cancel
  | .fire k => w.fire k

/-- Carries out requests in turn. -/
def run (w : Watch) (requests : List Request) : Watch := requests.foldl serve w

/-! ### A watch leaves the desk as it is -/

private theorem desk_follow (w : Watch) (plan : Plan) :
    (w.follow plan).desk = w.desk.follow plan := by
  induction plan generalizing w with
  | done => rfl
  | arm label callback next _ ih => exact ih _
  | cancel next ih => exact ih _

private theorem desk_fire (w : Watch) (k : Nat) : (w.fire k).desk = (w.desk.fire k).2 := by
  rw [fire, Desk.fire]
  cases w.desk.handles[k]? with
  | none => rfl
  | some given =>
    cases w.desk.timer.fire? k with
    | none => simp only [enter]
    | some timer => simp only [desk_follow, enter]

private theorem desk_serve (w : Watch) (request : Request) :
    (w.serve request).desk = w.desk.serve request := by
  cases request with
  | arm label callback => rfl
  | cancel => rfl
  | fire k => exact w.desk_fire k

private theorem desk_run (w : Watch) (requests : List Request) :
    (w.run requests).desk = requests.foldl Desk.serve w.desk := by
  induction requests generalizing w with
  | nil => rfl
  | cons request rest ih =>
    have hrest : ((w.serve request).run rest).desk =
        rest.foldl Desk.serve (w.serve request).desk := ih _
    rw [desk_serve] at hrest
    exact hrest

/-! ### The timer knows the live arming -/

/-- The timer knows the arming that is live by the story, there is a handle for every arming that
was accepted, and every moment fits. -/
structure Holds (delay : Float) (w : Watch) : Prop where
  waits : w.desk.timer.delay = delay
  handles : w.desk.handles.length = armings w.deeds
  live : ∀ k, w.desk.timer.live = some k ↔ IsLive w.deeds k
  fits : AllFit delay w.story

variable {delay : Float} {w : Watch} {k : Nat}

private theorem holds_fresh (delay : Float) : (fresh delay).Holds delay where
  waits := rfl
  handles := rfl
  live _ := ⟨nofun, fun h ↦ (not_isLive_nil h).elim⟩
  fits := trivial

private theorem Holds.not_isLive (h : w.Holds delay) (hidle : w.desk.timer.live = none) :
    ¬ IsLive w.deeds k := by
  rw [← h.live, hidle]
  nofun

private theorem Holds.isArmed_iff (h : w.Holds delay) :
    w.desk.timer.isArmed = true ↔ ∃ k, IsLive w.deeds k := by
  simp only [isArmed, Option.isSome_iff_exists, h.live]

/-- A deed is entered rightly if the timer knows what is live after it. -/
theorem Holds.enter (h : w.Holds delay) {deed : Deed} {after : Desk}
    (hdelay : after.timer.delay = delay)
    (hhandles : after.handles.length = armings (deed :: w.deeds))
    (hlive : ∀ k, after.timer.live = some k ↔ IsLive (deed :: w.deeds) k)
    (hfits : (after.timer.isArmed = true ↔ ∃ k, IsLive (deed :: w.deeds) k) →
      Moment.Fits delay ⟨deed, w.desk, after⟩ w.deeds) :
    (w.enter deed after).Holds delay where
  waits := hdelay
  handles := hhandles
  live := hlive
  fits := by
    refine ⟨hfits ?_, h.fits⟩
    simp only [isArmed, Option.isSome_iff_exists, hlive]

/-- What changes nothing about the armings leaves the live one live. -/
theorem Holds.enter_idle (h : w.Holds delay) (deed : Deed) (hno : deed.isArming = false)
    (hcancel : deed ≠ .cancelled) (hfire : ∀ k, deed ≠ .fired k true) (log : List DeskEntry)
    (hfits : (w.desk.timer.isArmed = true ↔ ∃ k, IsLive (deed :: w.deeds) k) →
      Moment.Fits delay ⟨deed, w.desk, { w.desk with log }⟩ w.deeds) :
    (w.enter deed { w.desk with log }).Holds delay := by
  refine h.enter h.waits ?_ (fun k ↦ ?_) hfits
  · rw [armings_cons, hno]
    exact h.handles
  · rw [isLive_cons, h.live k]
    simp [hno, hcancel, hfire k]

private theorem Holds.arm (h : w.Holds delay) (label : String) (callback : Plan) :
    (w.arm label callback).Holds delay := by
  cases hlive : w.desk.timer.live with
  | none =>
    rw [Watch.arm, Desk.arm_of_idle hlive]
    refine h.enter h.waits ?_ (fun k ↦ ?_)
      fun harmed ↦ ⟨harmed, fun k ↦ h.not_isLive hlive, ?_, rfl⟩
    · simp [armings_cons, Deed.isArming, h.handles]
    · simp [isLive_cons, Deed.isArming, h.handles]
    · simp only [h.handles, h.waits]
  | some k =>
    rw [Watch.arm, Desk.arm_of_live hlive]
    exact h.enter_idle (.armed label callback false) rfl (by simp) (by simp) w.desk.log fun harmed ↦
      ⟨harmed, ⟨k, (h.live k).1 hlive⟩, rfl⟩

private theorem Holds.cancel (h : w.Holds delay) : w.cancel.Holds delay := by
  rw [Watch.cancel, Desk.cancel]
  cases hlive : w.desk.timer.live with
  | none =>
    refine h.enter h.waits h.handles (fun k ↦ ?_) fun harmed ↦ ⟨harmed, fun k hk ↦ ?_, fun _ ↦ rfl⟩
    · simp [hlive, not_isLive_cancelled]
    · exact (h.not_isLive hlive hk).elim
  | some j =>
    have hj : IsLive w.deeds j := (h.live j).1 hlive
    refine h.enter h.waits h.handles (fun k ↦ ?_) fun harmed ↦ ⟨harmed, fun k hk ↦ ?_, fun hno ↦ ?_⟩
    · simp [RetryTimer.cancel, not_isLive_cancelled]
    · rw [hj.unique hk]
    · exact (hno j hj).elim

private theorem Holds.note (h : w.Holds delay) (accepted : Bool) : (w.note accepted).Holds delay :=
  h.enter_idle (.noted accepted) rfl (by simp) (by simp) _ fun harmed ↦ ⟨harmed, rfl⟩

private theorem Holds.follow (h : w.Holds delay) (plan : Plan) : (w.follow plan).Holds delay := by
  induction plan generalizing w with
  | done => exact h
  | arm label callback next _ ih => exact ih ((h.arm label callback).note _)
  | cancel next ih => exact ih h.cancel

private theorem Holds.fire (h : w.Holds delay) (k : Nat) : (w.fire k).Holds delay := by
  rw [Watch.fire]
  cases hgiven : w.desk.handles[k]? with
  | none => exact h
  | some given =>
    obtain ⟨label, callback⟩ := given
    cases htimer : w.desk.timer.fire? k with
    | none =>
      have hstale : ¬ IsLive w.deeds k := by
        rw [← h.live]
        intro hlive
        simp [fire?, hlive] at htimer
      exact h.enter_idle (.fired k false) rfl (by simp) (by simp) w.desk.log fun harmed ↦
        ⟨harmed, hstale, rfl⟩
    | some timer =>
      obtain ⟨hlive, rfl⟩ := fire?_eq_some_iff.1 htimer
      have hk : IsLive w.deeds k := (h.live k).1 hlive
      refine Holds.follow ?_ callback
      refine h.enter h.waits ?_ (fun j ↦ ?_) fun harmed ↦
        ⟨harmed, hk, rfl, label, callback, hgiven, rfl⟩
      · simpa [armings_cons, Deed.isArming] using h.handles
      · simp [RetryTimer.cancel, not_isLive_fired hk]

private theorem Holds.serve (h : w.Holds delay) (request : Request) :
    (w.serve request).Holds delay := by
  cases request with
  | arm label callback => exact h.arm label callback
  | cancel => exact h.cancel
  | fire k => exact h.fire k

private theorem Holds.run (h : w.Holds delay) (requests : List Request) :
    (w.run requests).Holds delay := by
  induction requests generalizing w with
  | nil => exact h
  | cons request rest ih => exact ih (h.serve request)

/-! ### Armings that are over -/

/-- A deed of a story in which every moment fits is done after deeds at which it fits. -/
theorem Holds.exists_fits (h : w.Holds delay) {deed : Deed} {later past : List Deed}
    (heq : w.deeds = later ++ deed :: past) : ∃ before after,
    Moment.Fits delay ⟨deed, before, after⟩ past := by
  obtain ⟨newer, older, hstory, -, holder⟩ := List.map_eq_append_iff.1 heq
  obtain ⟨m, rest, rfl, rfl, rfl⟩ := List.map_eq_cons_iff.1 holder
  have hfits : AllFit delay (newer ++ m :: rest) := hstory ▸ h.fits
  exact ⟨m.before, m.after, hfits.of_append.1⟩

private theorem Holds.isLive_of_fired (h : w.Holds delay) {later past : List Deed}
    (heq : w.deeds = later ++ .fired k true :: past) : IsLive past k := by
  obtain ⟨before, after, hfits⟩ := h.exists_fits heq
  exact hfits.2.1

/-- An arming that is over never fires. -/
theorem Holds.notMem_of_over (h : w.Holds delay) {later past : List Deed}
    (heq : w.deeds = later ++ past) (hmade : k < armings past) (hover : ¬ IsLive past k) :
    .fired k true ∉ later := by
  intro hmem
  obtain ⟨newer, older, rfl⟩ := List.append_of_mem hmem
  have hsplit : w.deeds = newer ++ .fired k true :: (older ++ past) := by simp [heq]
  exact not_isLive_append hmade hover older (h.isLive_of_fired hsplit)

/-- A callback runs once at most. -/
theorem Holds.notMem_of_fired (h : w.Holds delay) {later past : List Deed}
    (heq : w.deeds = later ++ .fired k true :: past) : .fired k true ∉ later := by
  have hk : IsLive past k := h.isLive_of_fired heq
  refine h.notMem_of_over heq ?_ (not_isLive_fired hk)
  rw [armings_cons]
  exact Nat.lt_add_right _ hk.lt

private theorem Holds.count_fired (h : w.Holds delay) (k : Nat) :
    w.deeds.count (.fired k true) ≤ 1 := by
  by_cases hmem : .fired k true ∈ w.deeds
  · obtain ⟨later, past, heq⟩ := List.append_of_mem hmem
    have hlater : .fired k true ∉ later := h.notMem_of_fired heq
    have hpast : .fired k true ∉ past := by
      intro hagain
      obtain ⟨mid, old, rfl⟩ := List.append_of_mem hagain
      have hsplit : w.deeds = (later ++ .fired k true :: mid) ++ .fired k true :: old := by
        simp [heq]
      exact h.notMem_of_fired hsplit (by simp)
    have honce : w.deeds.count (.fired k true) = 1 := by
      rw [heq, List.count_append, List.count_cons_self, List.count_eq_zero_of_not_mem hlater,
        List.count_eq_zero_of_not_mem hpast]
    exact Nat.le_of_eq honce
  · rw [List.count_eq_zero_of_not_mem hmem]
    exact Nat.zero_le 1

/-- A firing runs its callback just where its arming is the latest that was accepted and has been
neither cancelled nor fired since, and an arming is accepted, with one timer set for it, just where
none is live; what is refused or dropped changes nothing at all. So no callback runs twice, nor
after its arming was cancelled; and nothing is live any more when a callback runs, so that it can
arm the timer again. -/
theorem live_arming_fires (delay : Float) (requests : List Request) :
    let w := (fresh delay).run requests
    w.desk = requests.foldl Desk.serve { timer := { delay } } ∧
    (w.desk.timer.isArmed = true ↔ ∃ k, IsLive w.deeds k) ∧
    (∀ later m past, w.story = later ++ m :: past → m.Fits delay (past.map Moment.deed)) ∧
    (∀ k label callback accepted later past,
      w.deeds = later ++ .armed label callback accepted :: .fired k true :: past →
        accepted = true) ∧
    (∀ k, w.deeds.count (.fired k true) ≤ 1) ∧
    ∀ k later past, w.deeds = later ++ .cancelled :: past → k < armings past →
      .fired k true ∉ later := by
  intro w
  have h : w.Holds delay := (holds_fresh delay).run requests
  refine ⟨desk_run _ _, h.isArmed_iff, ?_, ?_, h.count_fired, ?_⟩
  · intro later m past heq
    have hfits : AllFit delay (later ++ m :: past) := heq ▸ h.fits
    exact hfits.of_append.1
  · intro k label callback accepted later past heq
    have hsplit : w.deeds =
        (later ++ [.armed label callback accepted]) ++ .fired k true :: past := by
      simp [heq]
    have hk : IsLive past k := h.isLive_of_fired hsplit
    obtain ⟨before, after, hfits⟩ := h.exists_fits heq
    cases accepted with
    | true => rfl
    | false =>
      obtain ⟨j, hj⟩ := hfits.2.1
      exact (not_isLive_fired hk hj).elim
  · intro k later past heq hmade
    refine h.notMem_of_over heq ?_ not_isLive_cancelled
    rw [armings_cons]
    omega

/-- A handle that was cancelled fires late, and a callback arms the timer anew. -/
example :
    ((fresh 2).run [.arm "a" .done, .cancel, .arm "b" (.arm "c" .done .done), .fire 0,
        .fire 1]).deeds =
      [.noted true, .armed "c" .done true, .fired 1 true, .fired 0 false,
        .armed "b" (.arm "c" .done .done) true, .cancelled, .armed "a" .done true] := by
  decide

end Watch

end Rendezvous.RetryTimer
