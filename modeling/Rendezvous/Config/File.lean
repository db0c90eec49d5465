import Rendezvous.Config.Environment
import Rendezvous.Text.Blank
import Rendezvous.Text.Split

/-!
# Settings from a file

A settings file has lines of the form key, colon, value. Blanks around key and value do not
count; a number sign starts a comment, at the start of a line or inside a value. Blank lines,
lines without a colon and unknown keys are passed over, and of several lines with one key the
last counts. A line ends at a line feed, a carriage return, or both.
-/

namespace Rendezvous.Config

open Text

/-- One assignment of a settings file. -/
abbrev Assignment := String × String

/-- The assignment of a line, if it has one. -/
def assignment? (line : List Char) : Option Assignment :=
  let line := trim line
  if line.head? = some '#' then none
  else (cutAt ':' line).map fun (key, value) =>
    (String.ofList (trim key), String.ofList (trim (value.takeWhile (· ≠ '#'))))

/-- The lines of a file. A carriage return counts as a line feed; where both stand together the
blank line between them makes no difference. -/
def fileLines (text : List Char) : List (List Char) :=
  splitOn '\n' (text.map fun c => if c = '\r' then '\n' else c)

/-- The assignments of a file in order. -/
def assignments (text : List Char) : List Assignment := (fileLines text).filterMap assignment?

/-- The last value assigned to a key. -/
def lastOf (assigned : List Assignment) (key : String) : Option String :=
  assigned.reverse.lookup key

/-- The settings with assignments laid over them. The port is read before the delay. -/
def overlay (base : Config) (assigned : List Assignment) : Except ConfigError Config := do
  let port ← readOr readPort (lastOf assigned "server_port") base.port
  let reconnectDelay ← readOr readDelay (lastOf assigned "reconnect_delay") base.reconnectDelay
  return {
    base with
    server := (lastOf assigned "server_ip").getD base.server
    port
    clientName := (lastOf assigned "client_name").getD base.clientName
    reconnectDelay
    logLevel := lastOf assigned "log_level" <|> base.logLevel }

/-- The text of a file. -/
def fileText (content : Bytes) : Except ConfigError (List Char) :=
  match Utf8.flaw? content with
  | some flaw => .error (.notText flaw)
  | none => .ok (Utf8.decodeLossy content)

/-- The settings with those of a file laid over them. -/
def withFile (base : Config) (content : Bytes) : Except ConfigError Config := do
  base.overlay (assignments (← fileText content))

end Rendezvous.Config
