import Rendezvous.Journal
import Rendezvous.Network.Client

/-!
# A headless run

One session from its sign-in to its end, with a journal and nobody else to hear of it. A signal of
the operating system asks the session to sign out. The run is over as soon as the session has
come to an end or could not be started; whatever is left is closed then. The exit code tells
whether the session was ever signed in.
-/

namespace Rendezvous.Headless

open Network (Client)

/-- A running session with its journal. -/
structure Run where
  client : Client
  journal : Journal := {}
  threshold : Nat

/-- Something that happens to a run. -/
inductive Step where
  | network (e : Network.Event)
  | fire (timer : Nat)
  /-- The operating system asks the run to end. -/
  | signal
  /-- The run is broken off. -/
  | interrupt
  deriving DecidableEq, Repr

/-- What comes back from a step. -/
inductive Reply where
  | started
  | done
  | ignored
  | absent
  | fired
  deriving DecidableEq, Repr

/-- What a step brought about. -/
structure Entry where
  reply : Reply
  records : List Record
  seen : List Network.Signal

/-- How a run ends. -/
inductive Exit where
  | code (n : Nat)
  /-- It has not ended by itself. -/
  | running
  deriving DecidableEq, Repr

/-- A whole run: its entries, and what its end brought about. -/
structure Report where
  exit : Exit
  entries : List Entry := []
  recordsAfter : List Record := []
  seenAfter : List Network.Signal := []

/-- The reply of a session as the reply of a run. -/
def replyOf : Client.Reply → Reply
  | .session .fired => .fired
  | .session .absent => .absent
  | .session _ => .done
  | .network .done => .done
  | .network .ignored => .ignored
  | .network .absent => .absent

namespace Run

/-- The session takes a step, and the journal the events of it. -/
def take (r : Run) (s : Client.Step) : Entry × Run :=
  let (reply, seen, client) := r.client.step .silent 0 s
  let events := (Host.notes (r.client.machine.newLines client.machine)).filterMap fun
    | .heard event _ => some event
    | .called _ _ => none
  (⟨replyOf reply, Journal.shown r.threshold (r.journal.recordsOf events), seen⟩,
    { r with client, journal := r.journal.afterAll events })

/-- Whether the session has come to its end. -/
def isOver (r : Run) : Bool := r.journal.ended

/-- The exit code at the end of the session. -/
def exitCode (r : Run) : Nat := if r.journal.signedIn then 0 else 1

/-- What closing the session brings about on the network. -/
def closing (r : Run) : List Network.Signal := (r.take (.call .close)).1.seen

/-- The report of a run whose last step has an entry of its own. -/
def finish (r : Run) (last : Entry) : Report where
  exit := .code r.exitCode
  recordsAfter := last.records
  seenAfter := last.seen ++ r.closing

/-- What a step brings about, if it does not break the run off. A signal that cannot be heard
does nothing. -/
def step? (r : Run) (signals : Bool) : Step → Option (Entry × Run)
  | .network e => some (r.take (.network e))
  | .fire timer => some (r.take (.fire timer))
  | .signal => some (if signals then r.take (.call .signOut) else (⟨.absent, [], []⟩, r))
  | .interrupt => none

/-- Goes through steps until the run is over. -/
def follow (r : Run) (signals : Bool) : List Step → Report
  | [] => { exit := .running, seenAfter := r.closing }
  | s :: rest =>
    match r.step? signals s with
    | none => { exit := .code 0, seenAfter := r.closing }
    | some (entry, next) =>
      if next.isOver then next.finish entry
      else
        let report := next.follow signals rest
        { report with entries := entry :: report.entries }

/-- A run that has done nothing yet. There is none where the settings have no level. -/
def fresh (c : Config) : Except LevelError Run :=
  match c.logLevel with
  | none => .error .vacant
  | some name => (Level.ofName name).map fun level =>
    { client := .fresh c true, threshold := Level.threshold level }

/-- Starts the session. -/
def start (r : Run) : Entry × Run :=
  let (entry, r) := r.take (.call (.connect none none none))
  ({ entry with reply := .started }, r)

/-- A run from its start. -/
def report (r : Run) (signals : Bool) (steps : List Step) : Report :=
  let (entry, r) := r.start
  if r.isOver then r.finish entry
  else
    let report := r.follow signals steps
    { report with entries := entry :: report.entries }

end Run

end Rendezvous.Headless
