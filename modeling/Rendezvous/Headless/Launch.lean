import Rendezvous.Config.Load
import Rendezvous.Headless

/-!
# The launch of a headless run

What the command comes to once its arguments are read. Settings that cannot be had end it before a
run, with a report and a code of its own, or break it off.
-/

namespace Rendezvous.Headless

/-- What the command comes to once its arguments are read. -/
inductive Launch where
  /-- There are no settings, and it is reported why. -/
  | refused (report : String)
  /-- The command breaks off. -/
  | broken (message : String)
  /-- The run has yet to start. -/
  | ready (r : Run)

namespace Launch

/-- The launch under the settings that an environment, a file and arguments give. -/
def ofSettings (e : Environment) (files : String → Except FileError Bytes) (a : Arguments) :
    Launch :=
  match Config.load e files a with
  | .error error =>
    match error.report? with
    | some report => .refused report
    | none => .broken error.message
  | .ok c =>
    match Run.fresh c with
    | .error error => .broken error.message
    | .ok r => .ready r

/-- The report of a launch and of the run after it. -/
def report (l : Launch) (signals : Bool) (steps : List Step) : Report :=
  match l with
  | .refused _ => { exit := .code 2 }
  | .broken _ => { exit := .code 1 }
  | .ready r => r.report signals steps

end Launch

end Rendezvous.Headless
