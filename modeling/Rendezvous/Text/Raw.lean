/-!
# Raw text

A text as a caller hands it over. It may hold surrogates that stand alone: a byte of an argument
that could not be decoded comes as one. They are code points but no characters, so a text that holds
one is no string and has no UTF-8.
-/

namespace Rendezvous.Text

/-- A code point: a character, or a surrogate by its place after U+D800. -/
inductive CodePoint where
  | char (c : Char)
  | surrogate (place : Fin 2048)
  deriving DecidableEq, Repr

/-- A text of any code points. -/
structure Raw where
  points : List CodePoint
  deriving DecidableEq, Repr

/-- The character that a code point is, if it is one. -/
def CodePoint.char? : CodePoint → Option Char
  | .char c => some c
  | .surrogate _ => none

namespace Raw

/-- A string as a text. -/
def ofString (s : String) : Raw := ⟨s.toList.map .char⟩

instance : Coe String Raw := ⟨ofString⟩

/-- Whether a text has no code point at all. -/
def isEmpty (t : Raw) : Bool := t.points.isEmpty

/-- The string that a text is, unless it holds a surrogate. -/
def string? (t : Raw) : Option String := (t.points.mapM CodePoint.char?).map String.ofList

/-- A string is the string that it is as a text. -/
@[simp] theorem string?_ofString (s : String) : (ofString s).string? = some s := by
  have hchars (cs : List Char) : (cs.map CodePoint.char).mapM CodePoint.char? = some cs := by
    induction cs with
    | nil => rfl
    | cons c rest ih => simp [CodePoint.char?, ih]
  rw [string?, ofString, hchars, Option.map_some, String.ofList_toList]

end Raw

end Rendezvous.Text
