import Rendezvous.Bytes

/-!
# Percent-encoding

Bytes in the query of a request target. A byte that is not allowed to stand for itself is written
as a percent sign and two hexadecimal digits in upper case. Decoding reads both forms back.
-/

namespace Rendezvous.Text.Percent

/-- A hexadecimal digit in upper case. -/
def hexDigit (n : Nat) : UInt8 := if n < 10 then UInt8.ofNat (48 + n) else UInt8.ofNat (55 + n)

/-- The value of a hexadecimal digit of either case. -/
def hexValue? (b : UInt8) : Option Nat :=
  let n := b.toNat
  if 48 ≤ n && n ≤ 57 then some (n - 48)
  else if 65 ≤ n && n ≤ 70 then some (n - 55)
  else if 97 ≤ n && n ≤ 102 then some (n - 87)
  else none

/-- A byte as it is written. -/
def encodeByte (allowed : UInt8 → Bool) (b : UInt8) : Bytes :=
  if allowed b then [b] else [37, hexDigit (b.toNat / 16), hexDigit (b.toNat % 16)]

/-- A run of bytes as it is written. -/
def encode (allowed : UInt8 → Bool) (bytes : Bytes) : Bytes := bytes.flatMap (encodeByte allowed)

/-- The bytes behind a written form. A percent sign without two digits after it stands for
itself. -/
def decode : Bytes → Bytes
  | [] => []
  | [a] => [a]
  | [a, b] => [a, b]
  | a :: b :: c :: rest =>
    if a = 37 then
      match hexValue? b, hexValue? c with
      | some hi, some lo => UInt8.ofNat (hi * 16 + lo) :: decode rest
      | _, _ => a :: decode (b :: c :: rest)
    else a :: decode (b :: c :: rest)

/-- The ASCII letters and digits. -/
def isAlphanumeric (b : UInt8) : Bool :=
  (48 ≤ b && b ≤ 57) || (65 ≤ b && b ≤ 90) || (97 ≤ b && b ≤ 122)

/-- A hexadecimal digit reads as its value. -/
theorem hexValue?_hexDigit {n : Nat} (h : n < 16) : hexValue? (hexDigit n) = some n := by
  revert n
  decide

/-- A written byte is read back. -/
theorem decode_encodeByte {allowed : UInt8 → Bool} (h : allowed 37 = false) (b : UInt8)
    (rest : Bytes) : decode (encodeByte allowed b ++ rest) = b :: decode rest := by
  have hb := b.toNat_lt
  rw [encodeByte]
  split
  · next ha =>
    have hne : b ≠ 37 := by
      rintro rfl
      simp [h] at ha
    match rest with
    | [] => rfl
    | [_] => rfl
    | _ :: _ :: _ => simp [decode, hne]
  · simp only [List.cons_append, List.nil_append, decode, if_true]
    rw [hexValue?_hexDigit (by omega), hexValue?_hexDigit (by omega)]
    simp only [Nat.div_add_mod', UInt8.ofNat_toNat]

/-- What is written is read back. -/
theorem decode_encode {allowed : UInt8 → Bool} (h : allowed 37 = false) (bytes : Bytes) :
    decode (encode allowed bytes) = bytes := by
  induction bytes with
  | nil => rfl
  | cons b rest ih =>
    rw [encode, List.flatMap_cons, ← encode, decode_encodeByte h, ih]

end Rendezvous.Text.Percent
