import Rendezvous.Text.Blank
import Rendezvous.Text.DecimalDigit
import Rendezvous.Text.Quoted

/-!
# Integers as text

An integer may have white space around it, one sign, decimal digits of any script, and single
underscores between digits. Conversion in either direction is limited to 4300 digits, leading
zeros included; the limit is checked before anything after the digits is looked at.
-/

namespace Rendezvous.Numeral

open Text

/-- The longest run of digits that is converted. -/
def digitLimit : Nat := 4300

/-- Whether every underscore has a digit on either side. The flag says whether a digit stands
before the text. -/
def wellGrouped : Bool → List Char → Bool
  | _, [] => true
  | afterDigit, '_' :: rest =>
    afterDigit && (match rest with
      | [] => false
      | c :: _ => isDecimalDigit c) && wellGrouped false rest
  | _, c :: rest => wellGrouped (isDecimalDigit c) rest

/-- The number that digits write in base ten; what is no digit is passed over. -/
def digitsValue (s : List Char) : Nat :=
  (s.filterMap digitValue?).foldl (fun n d => 10 * n + d) 0

/-- The sign in front of a numeral, if there is one: whether it is a minus, and the rest. -/
def splitSign : List Char → Bool × List Char
  | '-' :: rest => (true, rest)
  | '+' :: rest => (false, rest)
  | rest => (false, rest)

/-- Why a text is not read as an integer. -/
inductive IntegerError where
  | malformed
  | tooLong (digits : Nat)
  deriving DecidableEq, Repr

/-- The integer that a text writes. -/
def readInteger (s : List Char) : Except IntegerError Int :=
  let (negative, body) := splitSign (trimOf isWhiteSpace s)
  let run := body.takeWhile fun c => isDecimalDigit c || c = '_'
  let rest := body.dropWhile fun c => isDecimalDigit c || c = '_'
  let digits := run.countP isDecimalDigit
  if run.isEmpty || !wellGrouped false run then .error .malformed
  else if digitLimit < digits then .error (.tooLong digits)
  else if !rest.isEmpty then .error .malformed
  else .ok (if negative then -(digitsValue run : Int) else digitsValue run)

/-- The integer that a text writes, if it writes one. -/
def integer? (s : List Char) : Option Int := (readInteger s).toOption

/-- What is said of a text that is not an integer. Its literal is cut after 200 characters. -/
def IntegerError.message (s : List Char) : IntegerError → String
  | .malformed =>
    "invalid literal for int() with base 10: " ++ String.ofList ((Quoted.text s).take 200)
  | .tooLong digits =>
    s!"Exceeds the limit ({digitLimit} digits) for integer string conversion: " ++
      s!"value has {digits} digits; " ++ "use sys.set_int_max_str_digits() to increase the limit"

/-- The decimal digits of an integer, unless there are too many of them. -/
def integerText? (n : Int) : Option String :=
  if n.natAbs < Nat.pow 10 digitLimit then some (toString n) else none

/-- An integer is written in decimal up to the limit of digits. -/
theorem integerText?_eq (n : Int) :
    integerText? n = if n.natAbs < Nat.pow 10 digitLimit then some (toString n) else none := rfl

-- comparing with the limit by evaluation is never wanted: it is a number of 4301 digits
attribute [irreducible] integerText?

/-- What is said of an integer with too many digits. -/
def tooManyDigits : String :=
  s!"Exceeds the limit ({digitLimit} digits) for integer string conversion; " ++
    "use sys.set_int_max_str_digits() to increase the limit"

end Rendezvous.Numeral
