import Rendezvous.Numeral.Integer
import Rendezvous.Text.Split

/-!
# Settings from the command line

Options are read from left to right. A long option may be cut short as long as one option alone
starts that way, and may have its value behind an equals sign; a short option may have its value
right behind it, with or without that sign, and short options without a value may stand together.
A value is the next argument unless that looks like an option: it starts with a dash, is not a
negative number, and has no space. Two dashes alone end the options; attached to an option in
place of a value they leave it vacant. Nothing but options is accepted. The request for help or
for the version ends the reading where it stands, and so does an error.
-/

namespace Rendezvous

/-- The settings given on a command line. A vacant text is an empty one; a port and a level may be
given and yet be vacant. -/
structure Arguments where
  server : Option String := none
  port : Option (Option Int) := none
  name : Option String := none
  config : Option String := none
  logLevel : Option (Option String) := none
  deriving DecidableEq, Repr

namespace Arguments

open Text

/-- The options. -/
inductive Opt where
  | help
  | version
  | server
  | port
  | name
  | config
  | logLevel
  deriving DecidableEq, Repr

/-- All options with the letter and the word they are written with. -/
def options : List (Opt × Char × String) := [
  (.help, 'h', "help"),
  (.server, 'S', "server"),
  (.port, 'p', "port"),
  (.name, 'n', "name"),
  (.config, 'c', "config"),
  (.logLevel, 'l', "log-level"),
  (.version, 'v', "version")]

/-- Whether an option ends the reading instead of taking a value. -/
def Opt.isFlag (o : Opt) : Bool := o = .help || o = .version

/-- The option of a letter. -/
def ofLetter? (c : Char) : Option Opt :=
  (options.find? fun (_, letter, _) => letter = c).map fun (o, _, _) => o

/-- The options whose word starts with a given text, or the one that it spells out. -/
def ofWord (word : List Char) : List Opt :=
  match options.filter fun (_, _, w) => w.toList = word with
  | [] => (options.filter fun (_, _, w) => word.isPrefixOf w.toList).map fun (o, _, _) => o
  | spelled => spelled.map fun (o, _, _) => o

/-- What is attached to an option in the same argument. -/
inductive Attached where
  | nothing
  /-- Text right behind a letter. -/
  | joined (text : List Char)
  /-- Text behind an equals sign. -/
  | assigned (text : List Char)
  deriving DecidableEq, Repr

/-- What an argument is by its form. -/
inductive Token where
  | word (text : String)
  /-- An option, by its letter or by its word. -/
  | option (o : Opt) (byLetter : Bool) (a : Attached)
  /-- Something that no option explains. -/
  | unknown
  deriving DecidableEq, Repr

/-- Digits, at least one. -/
def isDigits (s : List Char) : Bool := !s.isEmpty && s.all isDecimalDigit

/-- Whether the text behind a dash makes it a negative number, with or without a fraction. One
line feed at the end does not count. -/
def isNumber (s : List Char) : Bool :=
  let s := if s.getLast? = some '\n' then s.dropLast else s
  isDigits s ||
    match cutAt '.' s with
    | some (whole, fraction) => whole.all isDecimalDigit && isDigits fraction
    | none => false

/-- An argument behind a dash that is no option of ours. -/
def plain (dashed : List Char) (arg : String) : Token :=
  if isNumber dashed || dashed.contains ' ' then .word arg else .unknown

/-- The form of an argument, unless it is the beginning of more than one option. The mark that
ends the options is not asked for here. -/
def token? (arg : String) : Option Token :=
  match arg.toList with
  | '-' :: '-' :: rest =>
    let (word, attached) := match cutAt '=' rest with
      | some (word, value) => (word, Attached.assigned value)
      | none => (rest, .nothing)
    match ofWord word with
    | [] => some (plain ('-' :: rest) arg)
    | [o] => some (.option o false attached)
    | _ => none
  | '-' :: letter :: rest =>
    match ofLetter? letter with
    | none => some (plain (letter :: rest) arg)
    | some o => some (.option o true (match rest with
        | [] => .nothing
        | '=' :: value => .assigned value
        | _ => .joined rest))
  | _ => some (.word arg)

/-- The mark that ends the options. -/
def endMark : String := "--"

/-- The forms of all arguments. After the mark that ends the options nothing is an option, and
the mark itself is accepted as little as what follows it. -/
def tokens? : List String → Option (List Token)
  | [] => some []
  | arg :: rest =>
    if arg = endMark then some (.unknown :: rest.map fun _ => .unknown)
    else do return (← token? arg) :: (← tokens? rest)

/-- How the reading of a command line ends. -/
inductive Outcome where
  | settings (a : Arguments)
  | help
  | version
  | usageError
  deriving DecidableEq, Repr

/-- The severities that may be asked for. -/
def severities : List String := ["DEBUG", "INFO", "WARNING", "ERROR"]

/-- The settings with what is given for an option, a value or nothing, unless the value is not
acceptable. -/
def set? (a : Arguments) (o : Opt) (given : Option String) : Option Arguments :=
  match o with
  | .server => some { a with server := some (given.getD "") }
  | .port => do
    let port ← given.mapM fun text => Numeral.integer? text.toList
    return { a with port := some port }
  | .name => some { a with name := some (given.getD "") }
  | .config => some { a with config := some (given.getD "") }
  | .logLevel =>
    if given.all severities.contains then some { a with logLevel := some given } else none
  | .help => none
  | .version => none

/-- The end of the reading at a flag. -/
def flagOutcome : Opt → Outcome
  | .version => .version
  | _ => .help

/-- Whether letters that stand together behind a flag can be read, given whether a word follows.
The first of them that takes a value has it behind itself or in the word. -/
def clusterReads (wordFollows : Bool) : List Char → Bool
  | [] => true
  | letter :: rest =>
    match ofLetter? letter with
    | none => false
    | some o => if o.isFlag then clusterReads wordFollows rest else !rest.isEmpty || wordFollows

/-- Whether the next argument can be a value. -/
def wordFollows : List Token → Bool
  | .word _ :: _ => true
  | _ => false

/-- The text attached to an option. -/
def Attached.text? : Attached → Option (List Char)
  | .nothing => none
  | .joined text => some text
  | .assigned text => some text

/-- What comes of a flag with something attached: a word takes nothing, a letter takes further
letters, at least one. -/
def flagWith (o : Opt) (byLetter : Bool) (rest : List Token) (attached : Attached) : Outcome :=
  match attached.text? with
  | none => flagOutcome o
  | some letters =>
    if byLetter && !letters.isEmpty && clusterReads (wordFollows rest) letters then flagOutcome o
    else .usageError

/-- What is given for an option by an attached text. -/
def given (text : List Char) : Option String :=
  if text = endMark.toList then none else some (String.ofList text)

/-- What a command line says, from left to right. -/
inductive Item where
  /-- An option is given, with a value or vacant. -/
  | set (o : Opt) (given : Option String)
  /-- Something is neither an option nor a value. -/
  | stray
  /-- The reading ends here. -/
  | stop (outcome : Outcome)
  deriving DecidableEq, Repr

/-- Brings options and values together. -/
def items : List Token → List Item
  | [] => []
  | .word _ :: rest => .stray :: items rest
  | .unknown :: rest => .stray :: items rest
  | .option o byLetter attached :: rest =>
    if o.isFlag then [.stop (flagWith o byLetter rest attached)]
    else
      match attached.text?, rest with
      | some text, rest => .set o (given text) :: items rest
      | none, .word value :: rest => .set o (some value) :: items rest
      | none, _ => [.stop .usageError]

/-- Carries out what a command line says. The flag tells whether anything was stray. -/
def carryOut (a : Arguments) (stray : Bool) : List Item → Outcome
  | [] => if stray then .usageError else .settings a
  | .stray :: rest => carryOut a true rest
  | .stop outcome :: _ => outcome
  | .set o given :: rest =>
    match a.set? o given with
    | some a => carryOut a stray rest
    | none => .usageError

/-- The answer to the request for the version. -/
def versionLine : String := "signalclient 1.0.0\n"

/-- Reads a command line. -/
def read (argv : List String) : Outcome :=
  match tokens? argv with
  | some tokens => carryOut {} false (items tokens)
  | none => .usageError

end Arguments

end Rendezvous
