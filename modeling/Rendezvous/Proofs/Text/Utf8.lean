import Rendezvous.Text.Utf8

/-!
# Reading encoded text

What was encoded reads back character by character, whatever bytes follow: the leading byte of a
character announces as many continuation bytes as were written, and these fall within the bounds
that it sets.
-/

namespace Rendezvous.Text.Utf8

private theorem toNat_ofNat {n : Nat} (h : n < 256) : (UInt8.ofNat n).toNat = n := by
  rw [UInt8.toNat_ofNat']
  exact Nat.mod_eq_of_lt h

private theorem toNat_continuation (n : Nat) : (continuation n).toNat = 0x80 + n % 64 := by
  rw [continuation, toNat_ofNat]
  omega

/-- A continuation byte within the bounds adds its six bits. -/
theorem readTail_cons {value tail : Nat} {low high b : UInt8} {rest : Bytes}
    (hlow : low.toNat ≤ b.toNat) (hhigh : b.toNat ≤ high.toNat) :
    readTail value low high (tail + 1) (b :: rest) =
      readTail (value * 64 + b.toNat % 64) 0x80 0xBF tail rest := by
  have hfits : (decide (low ≤ b) && decide (b ≤ high)) = true := by
    rw [Bool.and_eq_true]
    exact ⟨decide_eq_true (UInt8.le_iff_toNat_le.2 hlow),
      decide_eq_true (UInt8.le_iff_toNat_le.2 hhigh)⟩
  rw [readTail, if_pos hfits]

private theorem readTail_continuation {value tail : Nat} {low high : UInt8} {rest : Bytes} {n : Nat}
    (hlow : low.toNat ≤ 0x80 + n % 64) (hhigh : 0x80 + n % 64 ≤ high.toNat) :
    readTail value low high (tail + 1) (continuation n :: rest) =
      readTail (value * 64 + n % 64) 0x80 0xBF tail rest := by
  rw [readTail_cons (toNat_continuation n ▸ hlow) (toNat_continuation n ▸ hhigh),
    toNat_continuation]
  congr 2
  omega

/-- Past the first continuation byte every one is within the bounds. -/
theorem readTail_next {value tail : Nat} {rest : Bytes} (n : Nat) :
    readTail value 0x80 0xBF (tail + 1) (continuation n :: rest) =
      readTail (value * 64 + n % 64) 0x80 0xBF tail rest := by
  have hlow : (0x80 : UInt8).toNat = 0x80 := rfl
  have hhigh : (0xBF : UInt8).toNat = 0xBF := rfl
  apply readTail_continuation <;> omega

/-! ### Leading bytes -/

section Leading

variable {n : Nat}

private theorem lead?_two (hlow : 0x80 ≤ n) (hhigh : n < 0x800) :
    lead? (UInt8.ofNat (0xC0 + n / 64)) = some ⟨1, 0x80, 0xBF, n / 64⟩ := by
  have hbyte : (UInt8.ofNat (0xC0 + n / 64)).toNat = 0xC0 + n / 64 := toNat_ofNat (by omega)
  have hbits : 0xC0 + n / 64 - 0xC0 = n / 64 := by omega
  simp only [lead?, hbyte, hbits]
  rw [if_neg (by omega), if_pos (by omega)]

/-- The bounds of the first continuation byte leave out over-long forms and surrogates only. -/
theorem lead?_three (hlow : 0x800 ≤ n) (hhigh : n < 0x10000) (hvalid : n < 0xD800 ∨ 0xDFFF < n) :
    ∃ low high : UInt8, lead? (UInt8.ofNat (0xE0 + n / 4096)) = some ⟨2, low, high, n / 4096⟩ ∧
      low.toNat ≤ 0x80 + n / 64 % 64 ∧ 0x80 + n / 64 % 64 ≤ high.toNat := by
  have hbyte : (UInt8.ofNat (0xE0 + n / 4096)).toNat = 0xE0 + n / 4096 := toNat_ofNat (by omega)
  have hbits : 0xE0 + n / 4096 - 0xE0 = n / 4096 := by omega
  simp only [lead?, hbyte, hbits]
  rw [if_neg (by omega), if_neg (by omega)]
  split
  · next hfirst =>
    have hzero : n / 4096 = 0 := by omega
    have ha0 : (0xA0 : UInt8).toNat = 0xA0 := rfl
    have hbf : (0xBF : UInt8).toNat = 0xBF := rfl
    exact ⟨0xA0, 0xBF, by rw [hzero], by omega, by omega⟩
  · split
    · next hsurrogates =>
      have hthirteen : n / 4096 = 13 := by omega
      have h80 : (0x80 : UInt8).toNat = 0x80 := rfl
      have h9f : (0x9F : UInt8).toNat = 0x9F := rfl
      exact ⟨0x80, 0x9F, by rw [hthirteen], by omega, by omega⟩
    · have h80 : (0x80 : UInt8).toNat = 0x80 := rfl
      have hbf : (0xBF : UInt8).toNat = 0xBF := rfl
      exact ⟨0x80, 0xBF, by rw [if_pos (by omega)], by omega, by omega⟩

/-- The bounds of the first continuation byte leave out over-long forms and numbers past the last
character only. -/
theorem lead?_four (hlow : 0x10000 ≤ n) (hhigh : n < 0x110000) :
    ∃ low high : UInt8,
      lead? (UInt8.ofNat (0xF0 + n / 262144)) = some ⟨3, low, high, n / 262144⟩ ∧
      low.toNat ≤ 0x80 + n / 4096 % 64 ∧ 0x80 + n / 4096 % 64 ≤ high.toNat := by
  have hbyte : (UInt8.ofNat (0xF0 + n / 262144)).toNat = 0xF0 + n / 262144 :=
    toNat_ofNat (by omega)
  have hbits : 0xF0 + n / 262144 - 0xF0 = n / 262144 := by omega
  simp only [lead?, hbyte, hbits]
  rw [if_neg (by omega), if_neg (by omega), if_neg (by omega), if_neg (by omega),
    if_neg (by omega)]
  split
  · next hfirst =>
    have hzero : n / 262144 = 0 := by omega
    have h90 : (0x90 : UInt8).toNat = 0x90 := rfl
    have hbf : (0xBF : UInt8).toNat = 0xBF := rfl
    exact ⟨0x90, 0xBF, by rw [hzero], by omega, by omega⟩
  · split
    · have h80 : (0x80 : UInt8).toNat = 0x80 := rfl
      have hbf : (0xBF : UInt8).toNat = 0xBF := rfl
      exact ⟨0x80, 0xBF, rfl, by omega, by omega⟩
    · next hlast =>
      have hfour : n / 262144 = 4 := by omega
      have h80 : (0x80 : UInt8).toNat = 0x80 := rfl
      have h8f : (0x8F : UInt8).toNat = 0x8F := rfl
      exact ⟨0x80, 0x8F, by rw [if_pos (by omega), hfour], by omega, by omega⟩

end Leading

/-! ### Characters and texts -/

/-- The number of a character is no surrogate. -/
theorem toNat_valid (c : Char) : c.toNat < 0xD800 ∨ 0xDFFF < c.toNat ∧ c.toNat < 0x110000 :=
  c.valid

/-- A leading byte whose continuation bytes are all there gives the number they add up to. -/
theorem read_of_readTail {b : UInt8} {l : Lead} {rest after : Bytes} {n : Nat}
    (hascii : ¬ b.toNat < 0x80) (hlead : lead? b = some l)
    (htail : readTail l.bits l.low l.high l.tail rest = (some n, after)) :
    read (b :: rest) = some (Char.ofNat n) :: read after := by
  have hchar : readChar b rest = (some (Char.ofNat n), after) := by
    rw [readChar, if_neg hascii, hlead]
    simp only [htail, Option.map_some]
  rw [read, hchar]

/-- A character is read off the front of its bytes: one case for each number of bytes. -/
theorem read_encodeChar (c : Char) (rest : Bytes) :
    read (encodeChar c ++ rest) = some c :: read rest := by
  have hchar : Char.ofNat c.toNat = c := Char.ofNat_toNat c
  have hvalid := toNat_valid c
  rw [encodeChar]
  generalize c.toNat = n at hchar hvalid
  split
  · next hone =>
    have hbyte : (UInt8.ofNat n).toNat = n := toNat_ofNat (by omega)
    rw [List.singleton_append, read_ascii (hbyte.symm ▸ hone), hbyte, hchar]
  · split
    · next hone htwo =>
      have hbyte : (UInt8.ofNat (0xC0 + n / 64)).toNat = 0xC0 + n / 64 := toNat_ofNat (by omega)
      have hvalue : n / 64 * 64 + n % 64 = n := by omega
      have htail : readTail (n / 64) 0x80 0xBF 1 (continuation n :: rest) = (some n, rest) := by
        rw [readTail_next, readTail.eq_1, hvalue]
      rw [← hchar]
      exact read_of_readTail (by omega) (lead?_two (by omega) htwo) htail
    · split
      · next hone htwo hthree =>
        obtain ⟨low, high, hlead, hlow, hhigh⟩ := lead?_three (n := n) (by omega) hthree (by omega)
        have hbyte : (UInt8.ofNat (0xE0 + n / 4096)).toNat = 0xE0 + n / 4096 :=
          toNat_ofNat (by omega)
        have hvalue : (n / 4096 * 64 + n / 64 % 64) * 64 + n % 64 = n := by omega
        have htail : readTail (n / 4096) low high 2
            (continuation (n / 64) :: continuation n :: rest) = (some n, rest) := by
          rw [readTail_continuation hlow hhigh, readTail_next, readTail.eq_1, hvalue]
        rw [← hchar]
        exact read_of_readTail (by omega) hlead htail
      · next hone htwo hthree =>
        obtain ⟨low, high, hlead, hlow, hhigh⟩ := lead?_four (n := n) (by omega) (by omega)
        have hbyte : (UInt8.ofNat (0xF0 + n / 262144)).toNat = 0xF0 + n / 262144 :=
          toNat_ofNat (by omega)
        have hvalue : ((n / 262144 * 64 + n / 4096 % 64) * 64 + n / 64 % 64) * 64 + n % 64 = n := by
          omega
        have htail : readTail (n / 262144) low high 3
            (continuation (n / 4096) :: continuation (n / 64) :: continuation n :: rest) =
              (some n, rest) := by
          rw [readTail_continuation hlow hhigh, readTail_next, readTail_next, readTail.eq_1, hvalue]
        rw [← hchar]
        exact read_of_readTail (by omega) hlead htail

/-- A text is read off the front of its bytes. -/
theorem read_encode_append (text : List Char) (rest : Bytes) :
    read (encode text ++ rest) = text.map some ++ read rest := by
  induction text with
  | nil => rfl
  | cons c tail ih =>
    rw [encode, List.flatMap_cons, List.append_assoc, read_encodeChar, ← encode, ih]
    rfl

/-- A reader that tolerates errors finds none in encoded text, whatever follows it. -/
theorem decodeLossy_encode_append (text : List Char) (rest : Bytes) :
    decodeLossy (encode text ++ rest) = text ++ decodeLossy rest := by
  rw [decodeLossy, read_encode_append, List.map_append, List.map_map]
  exact congrArg (· ++ decodeLossy rest) (List.map_id text)

/-- A text that is encoded is read back. -/
theorem decodeLossy_encode (text : List Char) : decodeLossy (encode text) = text := by
  have hnothing : decodeLossy [] = [] := by rw [decodeLossy, read, List.map_nil]
  have hread := decodeLossy_encode_append text []
  rwa [List.append_nil, hnothing, List.append_nil] at hread

/-- A strict reader takes encoded text. -/
theorem decode?_encode (text : List Char) : decode? (encode text) = some text := by
  have hread := read_encode_append text []
  rw [List.append_nil, read, List.append_nil] at hread
  rw [decode?, hread, List.mapM_map]
  exact List.mapM_pure.trans (congrArg some (List.map_id text))

end Rendezvous.Text.Utf8
