import Rendezvous.Config.Arguments
import Rendezvous.Config.File

/-!
# Layered settings

The settings a client starts with: those of the environment, under those of a file, under those of
the command line. They are checked once, after all layers are in place.
-/

namespace Rendezvous.Config

/-- The settings with those of a command line laid over them. A vacant port changes nothing. -/
def withArguments (base : Config) (a : Arguments) : Config := {
  base with
  server := a.server.getD base.server
  port := a.port.join.getD base.port
  clientName := a.name.getD base.clientName
  logLevel := a.logLevel.getD base.logLevel }

/-- Usable settings, or the first fault. -/
def validate (c : Config) : Except ConfigError Config :=
  match c.fault? with
  | some fault => .error (.unusable fault)
  | none => .ok c

/-- The settings with those of a file laid over them. No path, or an empty one, means no file. -/
def withFileAt (base : Config) (files : String → Except FileError Bytes) (path : Option String) :
    Except ConfigError Config :=
  match path.filter (!·.isEmpty) with
  | none => .ok base
  | some path =>
    match files path with
    | .error cause => .error (.noFile path cause)
    | .ok content => base.withFile content

/-- The settings of a client: those of the environment, under those of a file, under those of the
command line. A vacant port is found after an empty server and before any other fault. -/
def load (e : Environment) (files : String → Except FileError Bytes) (a : Arguments) :
    Except ConfigError Config := do
  let base ← ofEnvironment e
  let base ← base.withFileAt files a.config
  let c := base.withArguments a
  if a.port = some none && !c.server.isEmpty then .error .vacantPort else c.validate

end Rendezvous.Config
