import Mathlib
import Rendezvous.Numeral.Real
import Rendezvous.Proofs.Text.Blank

/-!
# Texts that write no number

A text is read as a double that is no number only if it says so itself, in a word. Digits never do
that, however many there are and whatever the exponent: what is too large for a double is infinite,
and what is too small is zero. Next to zero such a double is the only one that is neither above nor
at most.
-/

namespace Rendezvous.Numeral

open Text Float.Model

/-! ### Doubles that are no numbers -/

private theorem isNaN_unpack (spec : Format) (b : BitVec spec.numBits) :
    (UnpackedFloat.unpack spec b).isNaN = true ↔
      UnpackedFloat.unpackExponent b = -1#_ ∧ UnpackedFloat.unpackMantissa b ≠ 0#_ := by
  simp only [UnpackedFloat.unpack]
  split_ifs with hones hmantissa
  · exact iff_of_false Bool.false_ne_true fun h ↦ h.2 hmantissa
  · exact iff_of_true rfl ⟨hones, hmantissa⟩
  all_goals exact iff_of_false Bool.false_ne_true fun h ↦ hones h.1

/-- What is too large for the format, or too small, is a number in it all the same. -/
theorem isNaN_pack (u : UnpackedFloat) : (pack u).isNaN = u.isNaN := by
  cases u with
  | infinity s => cases s <;> rfl
  | notANumber => rfl
  | zero s => cases s <;> rfl
  | finite s m e hm =>
    show (UnpackedFloat.unpack Format.binary64 (UnpackedFloat.pack Format.binary64 _)).isNaN = false
    rw [Bool.eq_false_iff, ne_eq, isNaN_unpack]
    simp only [UnpackedFloat.pack]
    split_ifs with hlarge hnormal
    · simp [UnpackedFloat.packedInfinity]
    · -- an exponent of nothing but ones was too large already
      rintro ⟨hexponent, -⟩
      rw [UnpackedFloat.unpackExponent_packComponents, ← BitVec.toNat_inj] at hexponent
      simp only [Int.cast_ofNat_Int, BitVec.toNat_ofNat, Nat.reducePow, BitVec.reduceNeg,
        Nat.mod_succ] at hexponent
      omega
    · simp

private theorem isNaN_round (spec : Format) (s : UnpackedFloat.Sign) (m : Nat) (e : Int)
    (a : UnpackedFloat.Accuracy) :
    (UnpackedFloat.roundWithAccuracy spec s m e a).isNaN = false := by
  simp only [UnpackedFloat.roundWithAccuracy]
  split_ifs <;> rfl

@[simp] private theorem isNaN_neg (x : Float) : (-x).isNaN = x.isNaN := by
  show (pack x.toModel.unpack.neg).isNaN = x.toModel.unpack.isNaN
  rw [isNaN_pack]
  cases x.toModel.unpack <;> rfl

/-- Whether a double is neither zero nor infinite, and a number. -/
def isOrdinary (x : Float) : Bool :=
  match x.toModel.unpack with
  | .finite .. => true
  | _ => false

variable {x y : Float}

private theorem exists_of_isOrdinary (h : isOrdinary x = true) :
    ∃ s m e hm, x.toModel.unpack = .finite s m e hm := by
  rw [isOrdinary] at h
  split at h
  · next s m e hm hx => exact ⟨s, m, e, hm, hx⟩
  · cases h

private theorem isNaN_mul (hy : isOrdinary y = true) : (x * y).isNaN = x.isNaN := by
  obtain ⟨s, m, e, hm, hy⟩ := exists_of_isOrdinary hy
  show (pack (UnpackedFloat.mul _ x.toModel.unpack y.toModel.unpack)).isNaN =
    x.toModel.unpack.isNaN
  rw [isNaN_pack, hy]
  cases x.toModel.unpack with
  | finite => exact isNaN_round ..
  | _ => rfl

private theorem isNaN_div (hy : isOrdinary y = true) : (x / y).isNaN = x.isNaN := by
  obtain ⟨s, m, e, hm, hy⟩ := exists_of_isOrdinary hy
  show (pack (UnpackedFloat.div _ x.toModel.unpack y.toModel.unpack)).isNaN =
    x.toModel.unpack.isNaN
  rw [isNaN_pack, hy]
  cases x.toModel.unpack with
  | finite => exact isNaN_round ..
  | _ => rfl

private theorem isNaN_toFloat (n : UInt64) : n.toFloat.isNaN = false := by
  show (pack (UnpackedFloat.normalize _ (n.toNat : Int) 0 .positive)).isNaN = false
  rw [isNaN_pack, UnpackedFloat.normalize]
  split
  · exact isNaN_round ..
  · rfl
  · exact isNaN_round ..

private theorem isOrdinary_powerOfTen (e : Nat)
    (h : e < Float.exactlyRepresentablePowersOfTen.size) :
    isOrdinary Float.exactlyRepresentablePowersOfTen[e] = true := by
  have hall : ∀ i : Fin 23, isOrdinary Float.exactlyRepresentablePowersOfTen[i] = true := by
    decide +kernel
  exact hall ⟨e, h⟩

private theorem isNaN_scaled (spec : Format) (m : Nat) (e : Int) :
    (UnpackedFloat.ofScientific spec m e).isNaN = false := by
  simp only [UnpackedFloat.ofScientific]
  split_ifs
  · rfl
  · rfl
  · rfl
  · exact isNaN_round ..
  · exact isNaN_round ..

/-- Digits with an exponent are a number, whether they are scaled by a power of ten that is a
double itself or not. -/
theorem isNaN_ofScientific (m : Nat) (negative : Bool) (e : Nat) :
    (Float.ofScientific m negative e).isNaN = false := by
  rw [Float.ofScientific]
  split
  · next hsmall =>
    have hten := isOrdinary_powerOfTen e (Nat.lt_succ_of_le hsmall.2)
    dsimp only
    split
    · exact (isNaN_div hten).trans (isNaN_toFloat _)
    · exact (isNaN_mul hten).trans (isNaN_toFloat _)
  · show (pack (UnpackedFloat.ofScientific _ m _)).isNaN = false
    rw [isNaN_pack, isNaN_scaled]

/-! ### Doubles next to zero -/

private theorem unpack_zero : (0 : Float).toModel.unpack = .zero .positive := rfl

private theorem zero_lt_unpacked {u : UnpackedFloat} (h : u.le (.zero .positive) ≠ true) :
    UnpackedFloat.lt (.zero .positive) u = true ↔ u.isNaN = false := by
  cases u with
  | infinity s =>
    cases s with
    | negative => exact absurd rfl h
    | positive => exact iff_of_true rfl rfl
  | notANumber => exact iff_of_false (by decide) (by decide)
  | zero s => exact absurd rfl h
  | finite s m e hm =>
    cases s with
    | negative => exact absurd rfl h
    | positive => exact iff_of_true rfl rfl

/-- A double that is not at most zero is above it, unless it is no number. -/
theorem zero_lt_iff (h : ¬ x ≤ 0) : 0 < x ↔ x.isNaN = false := by
  have hle : x.toModel.unpack.le (0 : Float).toModel.unpack ≠ true := mt decide_eq_true h
  have hlt : 0 < x ↔ UnpackedFloat.lt (0 : Float).toModel.unpack x.toModel.unpack = true :=
    decide_eq_true_iff
  rw [unpack_zero] at hle hlt
  exact hlt.trans (zero_lt_unpacked hle)

/-! ### Words for no number -/

/-- Lower case changes a letter by its distance from the upper case, and nothing else. -/
theorem toLower_cases (c : Char) : c = c.toLower ∨ c.toNat + 32 = c.toLower.toNat := by
  rw [Char.toLower]
  split
  · next hupper =>
    right
    have hbound : c.val.toNat ≤ 'Z'.toNat := UInt32.le_iff_toNat_le.1 hupper.2
    have hletter : 'Z'.toNat = 90 := rfl
    have hsum : (c.val + 32).toNat = c.val.toNat + 32 := by
      rw [UInt32.toNat_add]
      show (c.val.toNat + 32) % 2 ^ 32 = _
      omega
    exact hsum.symm
  · exact .inl rfl

private theorem eq_of_toLower {c lower upper : Char} (h : c.toLower = lower)
    (hupper : upper.toNat + 32 = lower.toNat) : c = lower ∨ c = upper := by
  rcases toLower_cases c with hc | hc
  · exact .inl (hc.trans h)
  · refine .inr (Char.ext (UInt32.toNat_inj.1 ?_))
    rw [h, ← hupper] at hc
    exact Nat.add_right_cancel hc

/-- A word for no number: its letters in either case, behind one sign or none. -/
def IsNoNumber (s : List Char) : Prop :=
  ∃ sign word, s = sign ++ word ∧ sign ∈ [[], ['+'], ['-']] ∧
    word.map Char.toLower = "nan".toList

/-- Whether a text writes that it is no number, with white space around the word or not. -/
def WritesNoNumber (s : List Char) : Prop :=
  ∃ front word back, s = front ++ word ++ back ∧ (∀ c ∈ front, isWhiteSpace c = true) ∧
    (∀ c ∈ back, isWhiteSpace c = true) ∧ IsNoNumber word

variable {s : List Char}

private theorem mem_of_toLower {word : List Char} (h : word.map Char.toLower = "nan".toList)
    {c : Char} (hc : c ∈ word) : c ∈ ['n', 'N', 'a', 'A'] := by
  have hletters : "nan".toList = ['n', 'a', 'n'] := rfl
  have hlower : c.toLower ∈ word.map Char.toLower := List.mem_map_of_mem hc
  rw [h, hletters] at hlower
  have hn (h : c.toLower = 'n') : c = 'n' ∨ c = 'N' := eq_of_toLower h rfl
  have ha (h : c.toLower = 'a') : c = 'a' ∨ c = 'A' := eq_of_toLower h rfl
  simp only [List.mem_cons, List.not_mem_nil, or_false] at hlower ⊢
  rcases hlower with h | h | h
  · exact (hn h).imp id .inl
  · exact .inr (.inr (ha h))
  · exact (hn h).imp id .inl

/-- No character of such a word is a blank, a digit or an underscore. -/
theorem IsNoNumber.apart (h : IsNoNumber s) {c : Char} (hc : c ∈ s) :
    isWhiteSpace c = false ∧ isDecimalDigit c = false ∧ c ≠ '_' := by
  obtain ⟨sign, word, rfl, hsign, hword⟩ := h
  have hmem : c ∈ ['+', '-', 'n', 'N', 'a', 'A'] := by
    rcases List.mem_append.1 hc with hc | hc
    · simp only [List.mem_cons, List.not_mem_nil, or_false] at hsign
      rcases hsign with rfl | rfl | rfl
      · exact absurd hc List.not_mem_nil
      · exact List.mem_singleton.1 hc ▸ List.mem_cons_self
      · exact List.mem_singleton.1 hc ▸ List.mem_cons_of_mem _ List.mem_cons_self
    · exact List.mem_cons_of_mem _ (List.mem_cons_of_mem _ (mem_of_toLower hword hc))
  -- a test of the list: a statement about characters is decided by going through all there are
  have hall : ['+', '-', 'n', 'N', 'a', 'A'].all (fun c ↦
      !isWhiteSpace c && !isDecimalDigit c && c != '_') = true := by decide
  have happart := List.all_eq_true.1 hall c hmem
  simpa [and_assoc] using happart

/-- White space around a word for no number does not matter. -/
theorem writesNoNumber_iff : WritesNoNumber s ↔ IsNoNumber (trimOf isWhiteSpace s) := by
  constructor
  · rintro ⟨front, word, back, rfl, hfront, hback, hword⟩
    have hkept : trimOf isWhiteSpace word = word :=
      trimOf_eq_self (fun c hc ↦ (hword.apart (List.mem_of_mem_head? hc)).1)
        fun c hc ↦ (hword.apart (List.mem_of_getLast? hc)).1
    rwa [trimOf_surround hfront hback, hkept]
  · intro hword
    obtain ⟨front, back, hfront, hback, hs⟩ := exists_trimOf isWhiteSpace s
    exact ⟨front, _, back, hs, hfront, hback, hword⟩

private theorem exists_splitSign (s : List Char) :
    ∃ sign ∈ [[], ['+'], ['-']], s = sign ++ (splitSign s).2 := by
  rw [splitSign.eq_def]
  split
  · exact ⟨['-'], by decide, rfl⟩
  · exact ⟨['+'], by decide, rfl⟩
  · exact ⟨[], by decide, rfl⟩

/-- In a text without digits nothing can be grouped. -/
theorem underscore_notMem (h : wellGrouped false s = true)
    (hs : ∀ c ∈ s, isDecimalDigit c = false) : '_' ∉ s := by
  induction s with
  | nil => exact List.not_mem_nil
  | cons c rest ih =>
    rw [List.forall_mem_cons] at hs
    by_cases hc : c = '_'
    · subst hc
      cases rest <;> simp [wellGrouped] at h
    · rw [wellGrouped.eq_4 _ _ _ hc, hs.1] at h
      exact List.not_mem_cons_of_ne_of_not_mem (Ne.symm hc) (ih h hs.2)

/-- The words for no number are the spellings of one word behind a sign. -/
theorem isNoNumber_iff :
    IsNoNumber s ↔ (splitSign s).2.map Char.toLower = "nan".toList := by
  constructor
  · rintro ⟨sign, word, rfl, hsign, hword⟩
    have hfirst : splitSign word = (false, word) := by
      rw [splitSign.eq_3]
      · rintro rest rfl
        exact absurd (mem_of_toLower hword List.mem_cons_self) (by decide)
      · rintro rest rfl
        exact absurd (mem_of_toLower hword List.mem_cons_self) (by decide)
    simp only [List.mem_cons, List.not_mem_nil, or_false] at hsign
    rcases hsign with rfl | rfl | rfl
    · rw [List.nil_append, hfirst]
      exact hword
    · exact hword
    · exact hword
  · intro hword
    obtain ⟨sign, hsign, hs⟩ := exists_splitSign s
    exact ⟨sign, _, hs, hsign, hword⟩

/-- Leaving out underscores makes no word for no number out of a text that is none. -/
theorem isNoNumber_filter (h : wellGrouped false s = true) :
    IsNoNumber (s.filter (· ≠ '_')) ↔ IsNoNumber s := by
  have hkept (hs : '_' ∉ s) : s.filter (· ≠ '_') = s :=
    List.filter_eq_self.2 fun c hc ↦ decide_eq_true fun heq ↦ hs (heq ▸ hc)
  constructor
  · intro hword
    have hdigits : ∀ c ∈ s, isDecimalDigit c = false := by
      intro c hc
      by_cases hu : c = '_'
      · rw [hu]
        decide
      · exact (hword.apart (List.mem_filter.2 ⟨hc, decide_eq_true hu⟩)).2.1
    rwa [hkept (underscore_notMem h hdigits)] at hword
  · intro hword
    rwa [hkept fun hc ↦ (hword.apart hc).2.2 rfl]

/-! ### What is read -/

private theorem isNaN_scaledDigits (digits : List Char) (exponent : Int) :
    (scaledDigits digits exponent).isNaN = false := by
  have hzero : (0 : Float).isNaN = false := by decide +kernel
  have hinfinity : infinity.isNaN = false := by decide +kernel
  simp only [scaledDigits]
  split_ifs
  · exact hzero
  · exact hinfinity
  · exact hzero
  · exact isNaN_ofScientific ..

private theorem isNaN_of_magnitude? (h : magnitude? s = some x) :
    x.isNaN = true ↔ s.map Char.toLower = "nan".toList := by
  rw [← String.ofList_inj, String.ofList_toList]
  simp only [magnitude?] at h
  split_ifs at h with hinf hnan
  · cases h
    refine iff_of_false (by decide +kernel) fun hnan ↦ ?_
    simp [hnan] at hinf
  · cases h
    exact iff_of_true (by decide +kernel) hnan
  · obtain ⟨e, -, rfl⟩ := Option.map_eq_some_iff.1 h
    rw [isNaN_scaledDigits]
    exact iff_of_false Bool.false_ne_true hnan

/-- What a text is read as is no number just where the text writes that it is none. -/
theorem isNaN_of_real? (h : real? s = some x) :
    x.isNaN = true ↔ WritesNoNumber s := by
  simp only [real?] at h
  split at h
  · next hgrouped =>
    obtain ⟨y, hy, rfl⟩ := Option.map_eq_some_iff.1 h
    rw [writesNoNumber_iff, ← isNoNumber_filter hgrouped, isNoNumber_iff,
      ← isNaN_of_magnitude? hy]
    split
    · rw [isNaN_neg]
    · rfl
  · cases h

end Rendezvous.Numeral
