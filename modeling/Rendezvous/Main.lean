import Rendezvous.Headless.Feed
import Rendezvous.Headless.Launch

/-!
# The command line

Reads settings from the environment, a file and the command line, and leads one headless run. The
network is a feed: what the run does is printed, what happens to it is read from standard input,
and records go to standard error.
-/

namespace Rendezvous.CommandLine

/-- The variables that settings are read from. -/
def settingNames : List String :=
  ["SIGNAL_SERVER", "SIGNAL_PORT", "SIGNAL_CLIENT_NAME", "SIGNAL_RECONNECT_DELAY",
    "SIGNAL_LOG_LEVEL"]

/-- The variables that name the user, the first that is set first. -/
def userNames : List String := ["LOGNAME", "USER", "LNAME", "USERNAME"]

/-- How the command is used. -/
def usage : String :=
  "usage: signalclient [-h] [--server SERVER] [--port PORT] [--name NAME] [--config CONFIG]\n" ++
  "                    [--log-level DEBUG|INFO|WARNING|ERROR] [--version]"

/-- The variables of a list that are set. -/
def bindings (names : List String) : IO (List (String × String)) :=
  names.filterMapM fun name => do
    return (← IO.getEnv name).map fun value => (name, value)

/-- The environment of this process. -/
def environment : IO Environment := do
  let users ← bindings userNames
  return {
    bindings := ← bindings settingNames
    user := (users.find? fun (_, user) => !user.isEmpty).map fun (_, user) => user
    machine := (← IO.getEnv "HOSTNAME").getD "localhost" }

/-- The cause of a failure by the number of the operating system, which may come negated. -/
def ofSystem (number : UInt32) (details : String) : FileError :=
  .ofNumber number.toInt32.toInt.natAbs details

/-- Why a file could not be read. -/
def failure : IO.Error → FileError
  | .noFileOrDirectory _ _ _ => .missing
  | .inappropriateType _ number details => ofSystem number details
  | .invalidArgument _ number details => ofSystem number details
  | .permissionDenied _ number details => ofSystem number details
  | e => .other 5 (toString e)

/-- The content of the file at a path. -/
def content (path : String) : IO (Except FileError Bytes) := do
  if path.contains '\x00' then return .error .nullCharacter
  try
    return .ok (← IO.FS.readBinFile path).toList
  catch e =>
    return .error (failure e)

/-- Prints what was recorded and what is seen of a run. -/
def print (records : List Record) (seen : List Network.Signal) : IO Unit := do
  for r in records do
    IO.eprintln (Headless.Feed.recordLine r)
  for s in seen do
    IO.println (Headless.Feed.line s)
  (← IO.getStdout).flush

/-- Ends a run that is over. -/
def depart (r : Headless.Run) : IO UInt32 := do
  print [] r.closing
  return UInt32.ofNat r.exitCode

/-- Leads a run along its feed. The end of the feed breaks it off. -/
partial def lead (r : Headless.Run) : IO UInt32 := do
  let line ← (← IO.getStdin).getLine
  let step := if line.isEmpty then some .interrupt else Headless.Feed.step? line
  match step with
  | none => lead r
  | some step =>
    match r.step? true step with
    | none =>
      print [] r.closing
      return 0
    | some (entry, next) =>
      print entry.records entry.seen
      if next.isOver then depart next else lead next

/-- Leads a run from its start. -/
def run (r : Headless.Run) : IO UInt32 := do
  let (entry, r) := r.start
  print entry.records entry.seen
  if r.isOver then depart r else lead r

/-- Ends the command before a run. -/
def refuse (message : String) (code : UInt32) : IO UInt32 := do
  IO.eprint message
  return code

/-- Reads the settings and runs a client with them. -/
def start (a : Arguments) : IO UInt32 := do
  let file ← content (a.config.getD "")
  match Headless.Launch.ofSettings (← environment) (fun _ => file) a with
  | .refused report => refuse report 2
  | .broken message => refuse (message ++ "\n") 1
  | .ready r => run r

end Rendezvous.CommandLine

open Rendezvous in
/-- The command. -/
def main (argv : List String) : IO UInt32 := do
  match Arguments.read argv with
  | .settings a => CommandLine.start a
  | .version =>
    IO.print Arguments.versionLine
    return 0
  | .help =>
    IO.println CommandLine.usage
    return 0
  | .usageError =>
    IO.eprintln CommandLine.usage
    return 2
