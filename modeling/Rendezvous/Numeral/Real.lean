import Rendezvous.Numeral.Integer

/-!
# Floating-point numbers as text

A number may have white space around it, one sign, a decimal point, a decimal exponent, digits of
any script, and single underscores between digits; infinity and not-a-number are written as words
in any case. The value is the double nearest to the number written, ties to even.
-/

namespace Rendezvous.Numeral

open Text

/-- The double above all others. -/
def infinity : Float := 1 / 0

/-- The double that is no number. -/
def notANumber : Float := 0 / 0

/-- The decimal exponent past which every number is infinite, and below whose negative every
number is zero, as a double. -/
def exponentBound : Nat := 400

/-- The double nearest to a natural number, given by its digits, times a power of ten. -/
def scaledDigits (digits : List Char) (exponent : Int) : Float :=
  let mantissa := digitsValue digits
  let significant := (digits.dropWhile fun c => digitValue? c = some 0).length
  let magnitude := exponent + significant
  if mantissa = 0 then 0
  else if (exponentBound : Int) < magnitude then infinity
  else if magnitude < -(exponentBound : Int) then 0
  else Float.ofScientific mantissa (exponent < 0) exponent.natAbs

/-- The exponent after a mantissa: nothing, or the letter e, a sign and digits. -/
def exponent? : List Char → Option Int
  | [] => some 0
  | mark :: rest =>
    let (negative, digits) := splitSign rest
    if (mark = 'e' || mark = 'E') && !digits.isEmpty && digits.all isDecimalDigit then
      some (if negative then -(digitsValue digits : Int) else digitsValue digits)
    else none

/-- The digits after a decimal point, where there is a point, and what follows them. -/
def splitFraction : List Char → List Char × List Char
  | '.' :: rest => (rest.takeWhile isDecimalDigit, rest.dropWhile isDecimalDigit)
  | rest => ([], rest)

/-- A number without sign and underscores. -/
def magnitude? (s : List Char) : Option Float :=
  let word := String.ofList (s.map Char.toLower)
  if word = "inf" || word = "infinity" then some infinity
  else if word = "nan" then some notANumber
  else
    let whole := s.takeWhile isDecimalDigit
    let (fraction, rest) := splitFraction (s.dropWhile isDecimalDigit)
    if whole.isEmpty && fraction.isEmpty then none
    else (exponent? rest).map fun e => scaledDigits (whole ++ fraction) (e - fraction.length)

/-- The double that a text writes, if it writes a number. -/
def real? (s : List Char) : Option Float :=
  let t := trimOf isWhiteSpace s
  if wellGrouped false t then
    let (negative, body) := splitSign (t.filter (· ≠ '_'))
    (magnitude? body).map fun x => if negative then -x else x
  else none

/-- What is said of a text that is not a number. -/
def notReal (s : List Char) : String :=
  "could not convert string to float: " ++ String.ofList (Quoted.text s)

end Rendezvous.Numeral
