import Rendezvous.Bytes

/-!
# Latin-1

The encoding of message heads: a byte is the character with the same number, so every run of
bytes is a text and a text has bytes just when its characters are below U+0100.
-/

namespace Rendezvous.Text.Latin1

/-- The character of a byte. -/
def charOf (b : UInt8) : Char := Char.ofNat b.toNat

/-- The text of a run of bytes. -/
def decode (bytes : Bytes) : List Char := bytes.map charOf

/-- The byte of a character below U+0100. -/
def byteOf? (c : Char) : Option UInt8 :=
  if c.toNat < 256 then some (UInt8.ofNat c.toNat) else none

/-- The bytes of a text, unless it has a character with no byte. -/
def encode? (text : List Char) : Option Bytes := text.mapM byteOf?

/-- The lower-case form of a Latin-1 letter; every other character is its own. -/
def lowerChar (c : Char) : Char :=
  let n := c.toNat
  if (0x41 ≤ n && n ≤ 0x5A) || (0xC0 ≤ n && n ≤ 0xDE && n != 0xD7) then Char.ofNat (n + 32)
  else c

/-- The text in lower case. -/
def lower (text : List Char) : List Char := text.map lowerChar

/-- The character of a byte has its number. -/
theorem toNat_charOf (b : UInt8) : (charOf b).toNat = b.toNat := by
  have hb := b.toNat_lt
  have valid : b.toNat.isValidChar := Or.inl (by omega)
  rw [charOf, Char.ofNat, dif_pos valid]
  rfl

/-- The text of a run is the texts of its parts. -/
@[simp] theorem decode_append (a b : Bytes) : decode (a ++ b) = decode a ++ decode b :=
  List.map_append

end Rendezvous.Text.Latin1
