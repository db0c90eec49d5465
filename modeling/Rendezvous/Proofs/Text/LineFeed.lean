import Mathlib.Tactic.SplitIfs
import Rendezvous.Proofs.Text.Utf8

/-!
# Reading parts at line feeds

A byte below 0x80 belongs to no longer sequence, so an ill-formed part ends before it at the latest:
what stands before such a byte and what stands behind it are read as if the other was not there. A
line feed is read only where there is one, since whatever a longer sequence adds up to, over-long
forms being refused, is at least 0x80.
-/

namespace Rendezvous.Text.Utf8

/-- The least that an announcement and the first continuation byte add up to. -/
def Lead.least (l : Lead) : Nat := l.bits * 64 + l.low.toNat % 64

/-- What holds of every announcement: the bounds are those of continuation bytes, and no sequence
that keeps to them adds up to less than 0x80, if need be by the bytes behind the first. -/
structure Lead.IsLong (l : Lead) : Prop where
  low : 0x80 ≤ l.low
  high : l.high ≤ 0xBF
  least : l.tail = 1 ∧ 0x80 ≤ l.least ∨ 2 ≤ l.tail ∧ 2 ≤ l.least

private theorem isLong_of_lead? {b : UInt8} {l : Lead} (h : lead? b = some l) : l.IsLong := by
  simp only [lead?] at h
  split_ifs at h <;> cases h
  · exact ⟨UInt8.le_refl _, UInt8.le_refl _, .inl (by simp [Lead.least]; omega)⟩
  · exact ⟨by decide, UInt8.le_refl _, .inr (by simp [Lead.least])⟩
  · exact ⟨UInt8.le_refl _, by decide, .inr (by simp [Lead.least])⟩
  · exact ⟨UInt8.le_refl _, UInt8.le_refl _, .inr (by simp [Lead.least]; omega)⟩
  · exact ⟨by decide, UInt8.le_refl _, .inr (by simp [Lead.least])⟩
  · exact ⟨UInt8.le_refl _, UInt8.le_refl _, .inr (by simp [Lead.least]; omega)⟩
  · exact ⟨UInt8.le_refl _, by decide, .inr (by simp [Lead.least])⟩

/-! ### Bytes below 0x80 -/

section Ascii

variable {b : UInt8}

/-- No continuation byte is below 0x80. -/
theorem readTail_append_ascii (hb : b < 0x80) {low : UInt8} (hlow : 0x80 ≤ low) (value : Nat)
    (high : UInt8) (tail : Nat) (front back : Bytes) :
    readTail value low high tail (front ++ b :: back) =
      ((readTail value low high tail front).1,
        (readTail value low high tail front).2 ++ b :: back) := by
  induction tail generalizing value low high front with
  | zero => rfl
  | succ tail ih =>
    cases front with
    | nil =>
      have hnot : decide (low ≤ b) = false :=
        decide_eq_false (UInt8.not_le.2 (UInt8.lt_of_lt_of_le hb hlow))
      simp [readTail, hnot]
    | cons c rest =>
      rw [List.cons_append, readTail, readTail]
      split
      · exact ih (UInt8.le_refl _) _ _ _
      · rfl

/-- The character that a byte starts is over before the next byte below 0x80. -/
theorem readChar_append_ascii (hb : b < 0x80) (c : UInt8) (front back : Bytes) :
    readChar c (front ++ b :: back) =
      ((readChar c front).1, (readChar c front).2 ++ b :: back) := by
  rw [readChar, readChar]
  split
  · rfl
  · split
    · rfl
    · next l hlead => simp only [readTail_append_ascii hb (isLong_of_lead? hlead).low]

/-- Reading parts at every byte below 0x80. The induction is on the characters before it. -/
theorem read_append_ascii (hb : b < 0x80) (front back : Bytes) :
    read (front ++ b :: back) = read front ++ some (Char.ofNat b.toNat) :: read back := by
  fun_induction read front with
  | case1 => exact read_ascii (UInt8.lt_iff_toNat_lt.1 hb) back
  | case2 c rest ih =>
    rw [List.cons_append, read, readChar_append_ascii hb, ih]
    rfl

end Ascii

/-- A line feed stands for itself, whatever is around it. -/
theorem decodeLossy_append_lf (front back : Bytes) :
    decodeLossy (front ++ Bytes.lf :: back) = decodeLossy front ++ '\n' :: decodeLossy back := by
  rw [decodeLossy, read_append_ascii (by decide), List.map_append]
  rfl

/-! ### Where a line feed comes from -/

/-- The bits that the first of the announced continuation bytes adds. -/
theorem exists_of_readTail {value tail v : Nat} {low high : UInt8} {bytes : Bytes}
    (hlow : 0x80 ≤ low) (hhigh : high ≤ 0xBF)
    (h : (readTail value low high (tail + 1) bytes).1 = some v) :
    ∃ bits rest, low.toNat % 64 ≤ bits ∧
      (readTail (value * 64 + bits) 0x80 0xBF tail rest).1 = some v := by
  cases bytes with
  | nil => simp [readTail] at h
  | cons b rest =>
    rw [readTail] at h
    split at h
    · next hfits =>
      simp only [Bool.and_eq_true, decide_eq_true_eq, UInt8.le_iff_toNat_le,
        UInt8.reduceToNat] at hfits hlow hhigh
      exact ⟨b.toNat % 64, rest, by omega, h⟩
    · cases h

/-- The first continuation byte adds its least, and every one behind it makes that 64 times more. -/
theorem le_of_readTail {value tail v : Nat} {low high : UInt8} {bytes : Bytes}
    (hlow : 0x80 ≤ low) (hhigh : high ≤ 0xBF)
    (h : (readTail value low high (tail + 1) bytes).1 = some v) :
    value * 64 + low.toNat % 64 ≤ v ∧
      (tail ≠ 0 → (value * 64 + low.toNat % 64) * 64 ≤ v) := by
  induction tail generalizing value low high bytes with
  | zero =>
    obtain ⟨bits, rest, hbits, hrest⟩ := exists_of_readTail hlow hhigh h
    simp only [readTail, Option.some.injEq] at hrest
    exact ⟨by omega, fun hmore ↦ absurd rfl hmore⟩
  | succ tail ih =>
    obtain ⟨bits, rest, hbits, hrest⟩ := exists_of_readTail hlow hhigh h
    have hgrown := (ih (UInt8.le_refl _) (UInt8.le_refl _) hrest).1
    exact ⟨by omega, fun _ ↦ by omega⟩

/-- A line feed is read off a line feed. -/
theorem eq_lf_of_readChar {b : UInt8} {rest : Bytes} (h : (readChar b rest).1 = some '\n') :
    b = Bytes.lf := by
  have hnumber {n : Nat} (hn : Char.ofNat n = '\n') : n = 10 := by
    by_cases hvalid : n.isValidChar
    · rw [Char.ofNat, dif_pos hvalid] at hn
      exact congrArg Char.toNat hn
    · rw [Char.ofNat, dif_neg hvalid] at hn
      cases hn
  rw [readChar] at h
  split at h
  · have hten : b.toNat = 10 := hnumber (Option.some.inj h)
    exact UInt8.toNat_inj.1 hten
  · split at h
    · cases h
    · next l hlead =>
      obtain ⟨v, hv, hchar⟩ := Option.map_eq_some_iff.1 h
      have hten := hnumber hchar
      obtain ⟨hlow, hhigh, hleast⟩ := isLong_of_lead? hlead
      obtain ⟨more, hmore⟩ : ∃ more, l.tail = more + 1 := ⟨l.tail - 1, by omega⟩
      rw [hmore] at hv hleast
      obtain ⟨hfirst, hfurther⟩ := le_of_readTail hlow hhigh hv
      rw [Lead.least] at hleast
      omega

private theorem readTail_suffix (value : Nat) (low high : UInt8) (tail : Nat) (bytes : Bytes) :
    (readTail value low high tail bytes).2 <:+ bytes := by
  induction tail generalizing value low high bytes with
  | zero => exact List.suffix_refl _
  | succ tail ih =>
    cases bytes with
    | nil => exact List.suffix_refl _
    | cons b rest =>
      rw [readTail]
      split
      · exact (ih _ _ _ rest).trans (List.suffix_cons b rest)
      · exact List.suffix_refl _

private theorem readChar_suffix (b : UInt8) (rest : Bytes) : (readChar b rest).2 <:+ rest := by
  rw [readChar]
  split
  · exact List.suffix_refl _
  · split
    · exact List.suffix_refl _
    · exact readTail_suffix _ _ _ _ _

/-- What has no line feed reads as text that has none. -/
theorem lf_notMem_decodeLossy {bytes : Bytes} (h : Bytes.lf ∉ bytes) :
    '\n' ∉ decodeLossy bytes := by
  have hread : some '\n' ∉ read bytes := by
    fun_induction read bytes with
    | case1 => exact List.not_mem_nil
    | case2 b rest ih =>
      rw [List.mem_cons, not_or] at h ⊢
      exact ⟨fun heq ↦ h.1 (eq_lf_of_readChar heq.symm).symm,
        ih fun hmem ↦ h.2 ((readChar_suffix b rest).mem hmem)⟩
  rw [decodeLossy, List.mem_map]
  rintro ⟨c, hc, heq⟩
  cases c with
  | none => exact absurd heq (by decide)
  | some c => exact hread (heq ▸ hc)

end Rendezvous.Text.Utf8
