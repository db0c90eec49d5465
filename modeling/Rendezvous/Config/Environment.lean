import Rendezvous.Config.Basic
import Rendezvous.Config.Error

/-!
# Settings from the environment

Five variables give settings; what they leave out has its default.
-/

namespace Rendezvous

/-- The variables that are set, the name of the user, if it is known, and that of the machine. -/
structure Environment where
  bindings : List (String × String) := []
  user : Option String := none
  machine : String := ""
  deriving DecidableEq, Repr

namespace Environment

/-- The value of a variable. -/
def get? (e : Environment) (name : String) : Option String := e.bindings.lookup name

/-- A client's name where none is given. -/
def defaultName (e : Environment) : String := Config.defaultName e.user e.machine

end Environment

namespace Config

/-- A port as it is written. -/
def readPort (text : String) : Except ConfigError Int :=
  match Numeral.readInteger text.toList with
  | .ok port => .ok port
  | .error cause => .error (.badInteger text cause)

/-- A delay as it is written. -/
def readDelay (text : String) : Except ConfigError Float :=
  match Numeral.real? text.toList with
  | some delay => .ok delay
  | none => .error (.badReal text)

/-- A setting that may be given as text. -/
def readOr {α : Type} (read : String → Except ConfigError α) (text : Option String)
    (otherwise : α) : Except ConfigError α :=
  match text with
  | some text => read text
  | none => .ok otherwise

/-- The settings that an environment gives. The port is read before the delay; an empty name
counts as none. -/
def ofEnvironment (e : Environment) : Except ConfigError Config := do
  let base := standard e.defaultName
  let port ← readOr readPort (e.get? "SIGNAL_PORT") base.port
  let reconnectDelay ← readOr readDelay (e.get? "SIGNAL_RECONNECT_DELAY") base.reconnectDelay
  return {
    base with
    server := (e.get? "SIGNAL_SERVER").getD base.server
    port
    clientName := ((e.get? "SIGNAL_CLIENT_NAME").filter (!·.isEmpty)).getD base.clientName
    reconnectDelay
    logLevel := e.get? "SIGNAL_LOG_LEVEL" <|> base.logLevel }

end Config

end Rendezvous
