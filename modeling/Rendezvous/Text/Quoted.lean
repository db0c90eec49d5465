import Rendezvous.Bytes
import Rendezvous.Text.Printable

/-!
# Quoted literals

How a message shows a text or a payload so that blanks and control characters can be seen: in
apostrophes, or in quotation marks where the content has an apostrophe and no quotation mark.
The backslash, the enclosing mark, tab, line feed and carriage return are escaped by a backslash,
and what cannot be printed by its number in hexadecimal digits.
-/

namespace Rendezvous.Text.Quoted

/-- A hexadecimal digit in lower case. -/
def hexDigit (n : Nat) : Char := if n < 10 then Char.ofNat (48 + n) else Char.ofNat (87 + n)

/-- The last digits of a number in base sixteen, as many as asked for. -/
def hexDigits : Nat → Nat → List Char
  | 0, _ => []
  | width + 1, n => hexDigits width (n / 16) ++ [hexDigit (n % 16)]

/-- The mark that encloses a content. -/
def markFor (content : List Char) : Char :=
  if content.contains '\'' && !content.contains '"' then '"' else '\''

/-- The escape of a character that is not shown as it is. -/
def escapeNumber (n : Nat) : List Char :=
  if n < 0x100 then '\\' :: 'x' :: hexDigits 2 n
  else if n < 0x10000 then '\\' :: 'u' :: hexDigits 4 n
  else '\\' :: 'U' :: hexDigits 8 n

/-- A character inside a literal. -/
def escape (shown : Char → Bool) (mark c : Char) : List Char :=
  if c = mark || c = '\\' then ['\\', c]
  else if c = '\t' then ['\\', 't']
  else if c = '\n' then ['\\', 'n']
  else if c = '\r' then ['\\', 'r']
  else if shown c then [c]
  else escapeNumber c.toNat

/-- A content between its marks. -/
def enclose (shown : Char → Bool) (content : List Char) : List Char :=
  let mark := markFor content
  mark :: (content.flatMap (escape shown mark) ++ [mark])

/-- The literal of a text. -/
def text (s : List Char) : List Char := enclose isPrintable s

/-- The literal of a run of bytes: a letter b, and then the bytes as ASCII characters, those
outside 0x20 to 0x7E by number. -/
def bytes (b : Bytes) : List Char :=
  'b' :: enclose (fun c => 0x20 ≤ c.toNat && c.toNat ≤ 0x7E)
    (b.map fun byte => Char.ofNat byte.toNat)

end Rendezvous.Text.Quoted
