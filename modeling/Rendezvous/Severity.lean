import Rendezvous.Text.Quoted

/-!
# Severities and levels

How severe a record is, and the level that a record must reach to be shown. A level is asked for
by its name, in letters of any case; names that mean nothing mean the level of information.
-/

namespace Rendezvous

/-- The severities of records. -/
inductive Severity where
  | debug
  | info
  | warning
  | error
  deriving DecidableEq, Repr

namespace Severity

/-- The label of a severity. -/
def name : Severity → String
  | .debug => "DEBUG"
  | .info => "INFO"
  | .warning => "WARNING"
  | .error => "ERROR"

/-- The rank of a severity. -/
def rank : Severity → Nat
  | .debug => 10
  | .info => 20
  | .warning => 30
  | .error => 40

end Severity

/-- Why there is no level. -/
inductive LevelError where
  /-- No level has this name. -/
  | unknown (name : String)
  /-- The name stands for something of another kind. -/
  | notLevel
  /-- There is no name. -/
  | vacant
  deriving DecidableEq, Repr

/-- What is said of the cause. -/
def LevelError.message : LevelError → String
  | .unknown name => "Unknown level: " ++ String.ofList (Text.Quoted.text name.toList)
  | .notLevel => "Level not an integer or a valid string"
  | .vacant => "log_level must not be empty"

namespace Level

/-- The levels by name. -/
def table : List (String × Nat) := [
  ("NOTSET", 0),
  ("DEBUG", 10),
  ("INFO", 20),
  ("WARN", 30),
  ("WARNING", 30),
  ("ERROR", 40),
  ("FATAL", 50),
  ("CRITICAL", 50)]

/-- The level of a name that is written out exactly. -/
def named (name : String) : Except LevelError Nat :=
  match table.lookup name with
  | some level => .ok level
  | none => .error (.unknown name)

/-- The upper-case form of a character, where that form is ASCII. -/
def upper : Char → List Char
  | 'ı' => ['I']
  | 'ſ' => ['S']
  | 'ß' => ['S', 'S']
  | 'ﬀ' => ['F', 'F']
  | 'ﬁ' => ['F', 'I']
  | 'ﬂ' => ['F', 'L']
  | 'ﬃ' => ['F', 'F', 'I']
  | 'ﬄ' => ['F', 'F', 'L']
  | 'ﬅ' => ['S', 'T']
  | 'ﬆ' => ['S', 'T']
  | c => [c.toUpper]

/-- How a record is written where nothing else is said. -/
def basicFormat : String := "%(levelname)s:%(name)s:%(message)s"

/-- The level that a name asks for. Two names are those of the basic format and of the table of
formats: the format is looked up as a level's name and is none, and the table is no name. -/
def ofName (name : String) : Except LevelError Nat :=
  match String.ofList (name.toList.flatMap upper) with
  | "BASIC_FORMAT" => named basicFormat
  | "_STYLES" => .error .notLevel
  | name => .ok ((table.lookup name).getD Severity.info.rank)

/-- The rank that a record must reach at a level. At level zero, which is none, it is that of a
warning. -/
def threshold (level : Nat) : Nat := if level = 0 then Severity.warning.rank else level

end Level

end Rendezvous
