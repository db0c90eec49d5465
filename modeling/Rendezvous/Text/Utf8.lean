import Rendezvous.Bytes

/-!
# UTF-8

Encoding, and decoding that reports ill-formed input: each maximal ill-formed part of a sequence
is one missing character. A reader that tolerates errors puts U+FFFD in its place, a strict one
refuses the text.
-/

namespace Rendezvous.Text.Utf8

/-- The low six bits of a number as a continuation byte. -/
def continuation (n : Nat) : UInt8 := UInt8.ofNat (0x80 + n % 64)

/-- The one to four bytes of a character. -/
def encodeChar (c : Char) : Bytes :=
  let n := c.toNat
  if n < 0x80 then [UInt8.ofNat n]
  else if n < 0x800 then [UInt8.ofNat (0xC0 + n / 64), continuation n]
  else if n < 0x10000 then
    [UInt8.ofNat (0xE0 + n / 4096), continuation (n / 64), continuation n]
  else
    [UInt8.ofNat (0xF0 + n / 262144), continuation (n / 4096), continuation (n / 64),
      continuation n]

/-- The bytes of a text. -/
def encode (text : List Char) : Bytes := text.flatMap encodeChar

/-- What a leading byte announces: how many continuation bytes follow, the bounds of the first
of them (which exclude over-long forms, surrogates and numbers past U+10FFFF), and the leading
byte's own bits. -/
structure Lead where
  tail : Nat
  low : UInt8
  high : UInt8
  bits : Nat
  deriving DecidableEq, Repr

/-- The announcement of a byte above 0x7F, unless no sequence starts with it. -/
def lead? (b : UInt8) : Option Lead :=
  let n := b.toNat
  if n < 0xC2 then none
  else if n < 0xE0 then some ⟨1, 0x80, 0xBF, n - 0xC0⟩
  else if n = 0xE0 then some ⟨2, 0xA0, 0xBF, 0⟩
  else if n = 0xED then some ⟨2, 0x80, 0x9F, 13⟩
  else if n < 0xF0 then some ⟨2, 0x80, 0xBF, n - 0xE0⟩
  else if n = 0xF0 then some ⟨3, 0x90, 0xBF, 0⟩
  else if n < 0xF4 then some ⟨3, 0x80, 0xBF, n - 0xF0⟩
  else if n = 0xF4 then some ⟨3, 0x80, 0x8F, 4⟩
  else none

/-- Reads the announced continuation bytes; stops before the first that does not fit. -/
def readTail (value : Nat) (low high : UInt8) : Nat → Bytes → Option Nat × Bytes
  | 0, rest => (some value, rest)
  | _ + 1, [] => (none, [])
  | tail + 1, b :: rest =>
    if low ≤ b && b ≤ high then readTail (value * 64 + b.toNat % 64) 0x80 0xBF tail rest
    else (none, b :: rest)

/-- The character that starts with a byte, if it is well formed, and the bytes after it. -/
def readChar (b : UInt8) (rest : Bytes) : Option Char × Bytes :=
  if b.toNat < 0x80 then (some (Char.ofNat b.toNat), rest)
  else match lead? b with
    | none => (none, rest)
    | some l =>
      let (value, after) := readTail l.bits l.low l.high l.tail rest
      (value.map Char.ofNat, after)

/-- Reading the rest of a character leaves no more bytes than there were. -/
theorem length_readTail_le (value : Nat) (low high : UInt8) (tail : Nat) (bytes : Bytes) :
    (readTail value low high tail bytes).2.length ≤ bytes.length := by
  induction tail generalizing value low high bytes with
  | zero => simp [readTail]
  | succ tail ih =>
    cases bytes with
    | nil => simp [readTail]
    | cons b rest =>
      rw [readTail]
      split
      · exact Nat.le_succ_of_le (ih _ _ _ _)
      · exact Nat.le_refl _

/-- Reading a character leaves no more bytes than were behind the first one. -/
theorem length_readChar_le (b : UInt8) (rest : Bytes) :
    (readChar b rest).2.length ≤ rest.length := by
  rw [readChar]
  split
  · exact Nat.le_refl _
  · split
    · exact Nat.le_refl _
    · exact length_readTail_le _ _ _ _ _

/-- The characters of a run of bytes, with nothing for each maximal ill-formed part. -/
def read (bytes : Bytes) : List (Option Char) :=
  match bytes with
  | [] => []
  | b :: rest => (readChar b rest).1 :: read (readChar b rest).2
termination_by bytes.length
decreasing_by exact Nat.lt_succ_of_le (length_readChar_le b rest)

/-- The text with U+FFFD for each ill-formed part. -/
def decodeLossy (bytes : Bytes) : List Char := (read bytes).map (·.getD '\uFFFD')

/-- The text, unless a part of it is ill formed. -/
def decode? (bytes : Bytes) : Option (List Char) := (read bytes).mapM id

/-- An ASCII byte reads as its own character, whatever follows. -/
theorem read_ascii {b : UInt8} (h : b.toNat < 0x80) (rest : Bytes) :
    read (b :: rest) = some (Char.ofNat b.toNat) :: read rest := by
  rw [read]
  simp [readChar, h]

end Rendezvous.Text.Utf8
