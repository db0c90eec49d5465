import Rendezvous.Numeral.Real
import Rendezvous.Text.Quoted
import Rendezvous.Text.Utf8.Flaw

/-!
# Why there are no settings

The causes for which settings cannot be had, and what is said of each.
-/

namespace Rendezvous

/-- Why a path does not lead to a file that can be read. -/
inductive FileError where
  | missing
  /-- The path goes on behind a file. -/
  | notFolder
  /-- The path ends at a folder. -/
  | isFolder
  | nameTooLong
  /-- No path has a null character. -/
  | nullCharacter
  /-- Anything else, by its number and its description. -/
  | other (number : Nat) (description : String)
  deriving DecidableEq, Repr

namespace FileError

/-- A description between its number and the path. -/
def numbered (path : String) (number : Nat) (description : String) : String :=
  s!"[Errno {number}] {description}: " ++ String.ofList (Text.Quoted.text path.toList)

/-- What is said of the error at a path. -/
def message (path : String) : FileError → String
  | .missing => numbered path 2 "No such file or directory"
  | .notFolder => numbered path 20 "Not a directory"
  | .isFolder => numbered path 21 "Is a directory"
  | .nameTooLong => numbered path 36 "File name too long"
  | .nullCharacter => "embedded null byte"
  | .other number description => numbered path number description

/-- The error that a number stands for. -/
def ofNumber (number : Nat) (description : String) : FileError :=
  match number with
  | 2 => .missing
  | 20 => .notFolder
  | 21 => .isFolder
  | 36 => .nameTooLong
  | number => .other number description

end FileError

/-- Why settings cannot be had. -/
inductive ConfigError where
  /-- A path does not lead to a file. -/
  | noFile (path : String) (cause : FileError)
  /-- A file is not text. -/
  | notText (flaw : Text.Utf8.Flaw)
  /-- A port is not an integer. -/
  | badInteger (text : String) (cause : Numeral.IntegerError)
  /-- A delay is not a number. -/
  | badReal (text : String)
  /-- The option for the port was given without a port. -/
  | vacantPort
  /-- The settings together are not usable. -/
  | unusable (fault : String)
  deriving DecidableEq, Repr

/-- What is said of the cause. -/
def ConfigError.message : ConfigError → String
  | .noFile path cause => cause.message path
  | .notText flaw => flaw.message
  | .badInteger text cause => cause.message text.toList
  | .badReal text => Numeral.notReal text.toList
  | .vacantPort => "port must not be empty"
  | .unusable fault => fault

/-- The report of a client that ends for the cause before it has started. A port that was left
out is not reported: it breaks the client off. -/
def ConfigError.report? (e : ConfigError) : Option String :=
  if e = .vacantPort then none else some ("Error: " ++ e.message ++ "\n")

end Rendezvous
