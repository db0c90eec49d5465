import Rendezvous.Numeral.Integer

/-!
# Integers that can be written

Reading and writing have the same limit on digits, so what was read can be written again, and
what was written reads back as it was.
-/

namespace Rendezvous.Numeral

open Text

/-- Whether an integer has few enough digits to be written. -/
def IsWritable (n : Int) : Prop := (integerText? n).isSome

private theorem isWritable_iff {n : Int} : IsWritable n ↔ n.natAbs < Nat.pow 10 digitLimit := by
  rw [IsWritable, integerText?_eq]
  split <;> simp_all

/-- What can be written is written in decimal. -/
theorem integerText?_of_isWritable {n : Int} (h : IsWritable n) :
    integerText? n = some (toString n) := by
  rw [IsWritable, integerText?_eq] at h
  rw [integerText?_eq]
  split <;> simp_all

/-- An integer with few digits can be written. -/
theorem isWritable_of_lt {n : Int} {k : Nat} (hn : n.natAbs < Nat.pow 10 k)
    (hk : k ≤ digitLimit) : IsWritable n := by
  have hpow (j : Nat) (hj : k ≤ j) : Nat.pow 10 k ≤ Nat.pow 10 j :=
    Nat.pow_le_pow_right (by decide) hj
  exact isWritable_iff.2 (Nat.lt_of_lt_of_le hn (hpow _ hk))

private theorem foldl_digits_lt {digits : List Nat} (h : ∀ d ∈ digits, d < 10) (start : Nat) :
    digits.foldl (fun n d ↦ 10 * n + d) start < (start + 1) * Nat.pow 10 digits.length := by
  induction digits generalizing start with
  | nil =>
    show start < (start + 1) * 1
    omega
  | cons d rest ih =>
    have hd := h d List.mem_cons_self
    have hstep : 10 * start + d + 1 ≤ (start + 1) * 10 := by omega
    have hrest := ih (fun x hx ↦ h x (List.mem_cons_of_mem _ hx)) (10 * start + d)
    calc (d :: rest).foldl (fun n d ↦ 10 * n + d) start
        < (10 * start + d + 1) * Nat.pow 10 rest.length := hrest
      _ ≤ (start + 1) * 10 * Nat.pow 10 rest.length := Nat.mul_le_mul_right _ hstep
      _ = (start + 1) * Nat.pow 10 (d :: rest).length := by
        rw [Nat.mul_assoc, List.length_cons]
        exact congrArg _ Nat.pow_succ'.symm

/-- A run of digits writes a number with no more digits. -/
theorem digitsValue_lt (s : List Char) :
    digitsValue s < Nat.pow 10 (s.countP isDecimalDigit) := by
  have hcount : s.countP isDecimalDigit = (s.filterMap digitValue?).length := by
    induction s with
    | nil => rfl
    | cons c rest ih => cases hc : digitValue? c <;> simp [isDecimalDigit, hc, ih]
  have hdigits : ∀ d ∈ s.filterMap digitValue?, d < 10 := by
    intro d hd
    obtain ⟨c, -, hc⟩ := List.mem_filterMap.1 hd
    exact digitValue?_lt hc
  have hfold := foldl_digits_lt hdigits 0
  rwa [Nat.zero_add, Nat.one_mul, ← hcount] at hfold

/-- What was read as an integer can be written. -/
theorem isWritable_of_integer? {s : List Char} {n : Int} (h : integer? s = some n) :
    IsWritable n := by
  rw [integer?, readInteger] at h
  simp only at h
  split at h
  · cases h
  · split at h
    · cases h
    · next hdigits =>
      split at h
      · cases h
      · simp only [Except.toOption, Option.some.injEq] at h
        subst h
        apply isWritable_of_lt _ (Nat.le_of_not_lt hdigits)
        split
        · rw [Int.natAbs_neg, Int.natAbs_natCast]
          exact digitsValue_lt _
        · rw [Int.natAbs_natCast]
          exact digitsValue_lt _

/-- The text of an integer is a sign and digits. -/
theorem mem_toString {n : Int} {c : Char} (h : c ∈ (toString n).toList) :
    c = '-' ∨ c.isDigit := by
  rw [Int.toString_eq_repr, Int.repr_eq_if] at h
  split at h
  · rw [Nat.toList_repr] at h
    exact .inr (Nat.isDigit_of_mem_toDigits (by decide) (by decide) h)
  · rw [String.toList_append, List.mem_append, Nat.toList_repr] at h
    rcases h with h | h
    · left
      simpa using h
    · exact .inr (Nat.isDigit_of_mem_toDigits (by decide) (by decide) h)

/-! ### Reading what was written -/

/-- A digit of ASCII has the value that its place behind zero gives. -/
theorem digitValue?_of_isDigit {c : Char} (h : c.isDigit) :
    digitValue? c = some (c.toNat - '0'.toNat) := by
  have hrange : 0x30 ≤ c.toNat ∧ c.toNat < 0x30 + 10 := by
    have hbounds := Char.isDigit_iff_toNat.1 h
    have hzero : '0'.toNat = 0x30 := rfl
    have hnine : '9'.toNat = 0x39 := rfl
    omega
  have hfirst : digitZeros.find? (fun start ↦ start ≤ c.toNat && c.toNat < start + 10) =
      some 0x30 := by
    rw [digitZeros, List.find?_cons_of_pos]
    simp [hrange.1, hrange.2]
  rw [digitValue?, hfirst]
  rfl

private theorem isDecimalDigit_of_isDigit {c : Char} (h : c.isDigit) : isDecimalDigit c := by
  rw [isDecimalDigit, digitValue?_of_isDigit h]
  rfl

/-- What is written of an integer has no blanks. -/
theorem isBlank_of_mem_toString {n : Int} {c : Char} (h : c ∈ (toString n).toList) :
    isBlank c = false := by
  rcases mem_toString h with rfl | hdigit
  · decide
  · have hbounds := Char.isDigit_iff_toNat.1 hdigit
    have hzero : '0'.toNat = 0x30 := rfl
    have hnine : '9'.toNat = 0x39 := rfl
    simp only [isBlank, isWhiteSpace, isInformationSeparator, Bool.or_eq_false_iff,
      Bool.and_eq_false_iff, decide_eq_false_iff_not, beq_eq_false_iff_ne]
    omega

variable {s : List Char}

private theorem digitsValue_of_isDigit (h : ∀ c ∈ s, c.isDigit) :
    digitsValue s = Nat.ofDigitChars 10 s 0 := by
  have hfold (start : Nat) : (s.filterMap digitValue?).foldl (fun n d ↦ 10 * n + d) start =
      Nat.ofDigitChars 10 s start := by
    induction s generalizing start with
    | nil => rfl
    | cons c rest ih =>
      rw [List.forall_mem_cons] at h
      rw [List.filterMap_cons_some (digitValue?_of_isDigit h.1), List.foldl_cons, ih h.2,
        Nat.ofDigitChars_cons]
  exact hfold 0

private theorem wellGrouped_of_isDigit (h : ∀ c ∈ s, c.isDigit) (afterDigit : Bool) :
    wellGrouped afterDigit s := by
  induction s generalizing afterDigit with
  | nil => rfl
  | cons c rest ih =>
    rw [List.forall_mem_cons] at h
    have hc : c ≠ '_' := by
      rintro rfl
      exact absurd h.1 (by decide)
    rw [wellGrouped.eq_4 _ _ _ hc]
    exact ih h.2 _

/-- Digits behind a sign, few enough of them, are the number that they write. -/
theorem readInteger_of_digits {digits : List Char} {negative : Bool}
    (htrim : trimOf isWhiteSpace s = s) (hsign : splitSign s = (negative, digits))
    (hdigits : ∀ c ∈ digits, c.isDigit) (hne : digits ≠ []) (hshort : digits.length ≤ digitLimit) :
    readInteger s = .ok (if negative then -(Nat.ofDigitChars 10 digits 0 : Int)
      else Nat.ofDigitChars 10 digits 0) := by
  have hall : ∀ c ∈ digits, (isDecimalDigit c || c = '_') = true := fun c hc ↦ by
    rw [isDecimalDigit_of_isDigit (hdigits c hc), Bool.true_or]
  have hrun : digits.takeWhile (fun c ↦ isDecimalDigit c || c = '_') = digits := by
    simpa using @List.takeWhile_append_of_pos _ _ _ [] hall
  have hrest : digits.dropWhile (fun c ↦ isDecimalDigit c || c = '_') = [] := by
    simpa using @List.dropWhile_append_of_pos _ _ _ [] hall
  have hcount : digits.countP isDecimalDigit = digits.length :=
    List.countP_eq_length.2 fun c hc ↦ isDecimalDigit_of_isDigit (hdigits c hc)
  have hempty : digits.isEmpty = false := by simpa using hne
  simp only [readInteger, htrim, hsign, hrun, hrest, hcount, hempty,
    wellGrouped_of_isDigit hdigits, digitsValue_of_isDigit hdigits, Nat.not_lt.2 hshort]
  simp

private theorem splitSign_of_isDigit (h : ∀ c ∈ s, c.isDigit) : splitSign s = (false, s) := by
  cases s with
  | nil => rfl
  | cons c rest =>
    have hdigit := h c List.mem_cons_self
    rw [splitSign.eq_3]
    · rintro rest' ⟨⟩
      exact absurd hdigit (by decide)
    · rintro rest' ⟨⟩
      exact absurd hdigit (by decide)

private theorem length_toDigits_le {n k : Nat} (hk : 0 < k) (h : n < Nat.pow 10 k) :
    (Nat.toDigits 10 n).length ≤ k :=
  (Nat.length_toDigits_le_iff (by decide) hk).2 h

private theorem trimOf_toString (n : Int) :
    trimOf isWhiteSpace (toString n).toList = (toString n).toList := by
  have hnot (c : Char) (hc : c ∈ (toString n).toList) : isWhiteSpace c = false :=
    (Bool.or_eq_false_iff.1 (isBlank_of_mem_toString hc)).1
  exact trimOf_eq_self (fun c hc ↦ hnot c (List.mem_of_mem_head? hc))
    fun c hc ↦ hnot c (List.mem_of_getLast? hc)

/-- What was written of an integer reads back as it. -/
theorem integer?_toString {n : Int} (h : IsWritable n) : integer? (toString n).toList = some n := by
  have htrim := trimOf_toString n
  have hdigits (k : Nat) : ∀ c ∈ Nat.toDigits 10 k, c.isDigit := fun c hc ↦
    Nat.isDigit_of_mem_toDigits (by decide) (by decide) hc
  have hbound := isWritable_iff.1 h
  have hshort : (Nat.toDigits 10 n.natAbs).length ≤ digitLimit := by
    apply length_toDigits_le
    · decide
    · exact hbound
  have hvalue : Nat.ofDigitChars 10 (Nat.toDigits 10 n.natAbs) 0 = n.natAbs :=
    Nat.ofDigitChars_toDigits (by decide) (by decide)
  rw [integer?]
  rw [Int.toString_eq_repr, Int.repr_eq_if] at htrim ⊢
  split at htrim
  · next hpos =>
    rw [if_pos hpos]
    have habs : n.toNat = n.natAbs := by omega
    rw [Nat.toList_repr, habs] at htrim ⊢
    rw [readInteger_of_digits htrim (splitSign_of_isDigit (hdigits _)) (hdigits _)
      Nat.toDigits_ne_nil hshort, hvalue]
    simp only [Bool.false_eq_true, if_false, Except.toOption, Option.some.injEq]
    omega
  · next hneg =>
    rw [if_neg hneg]
    have habs : (-n).toNat = n.natAbs := by omega
    have hsign : splitSign ("-".toList ++ Nat.toDigits 10 n.natAbs) =
        (true, Nat.toDigits 10 n.natAbs) := rfl
    rw [String.toList_append, Nat.toList_repr, habs] at htrim ⊢
    rw [readInteger_of_digits htrim hsign (hdigits _) Nat.toDigits_ne_nil hshort, hvalue]
    simp only [if_true, Except.toOption, Option.some.injEq]
    omega

end Rendezvous.Numeral
