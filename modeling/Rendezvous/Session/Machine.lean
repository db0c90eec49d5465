import Rendezvous.Config.Basic
import Rendezvous.Session.Basic

/-!
# A session and its host

A session with the settings it was made for and the host it runs on. Everything a session does is
a computation on this pair that may stop at a fault; what was done before the fault stays done.
-/

namespace Rendezvous

/-- A session with its surroundings. -/
structure Machine where
  config : Config
  /-- Whether an observer is registered. Until then events go unheard. -/
  observed : Bool
  session : Session
  host : Host Note

/-- What stops a computation of a session. -/
inductive Fault where
  /-- The observer refused to go on. -/
  | observer
  /-- A second observer was to be registered. -/
  | alreadyObserved
  /-- An integer has too many digits to be written. -/
  | numberTooLong
  /-- A request cannot be written. -/
  | request (e : Wire.RequestError)
  deriving DecidableEq, Repr

/-- Computations of a session. -/
abbrev SessionM := ExceptT Fault (StateM Machine)

namespace Machine

/-- A session that has done nothing yet. -/
def fresh (config : Config) (observed : Bool) (policy : Policy) : Machine where
  config
  observed
  session := { retry := { delay := config.reconnectDelay } }
  host := { policy }

/-- Puts the session into a phase. -/
def setPhase (m : Machine) (phase : Session.Phase) : Machine :=
  { m with session := { m.session with phase } }

/-- Leaves a note in the log. -/
def note (m : Machine) (n : Note) : Machine := { m with host := m.host.write (.note n) }

/-- Takes back the retry that is due, if one is. -/
def cancelRetry (m : Machine) : Machine :=
  match m.session.retry.live with
  | none => m
  | some timer => {
      m with
      session := { m.session with retry := m.session.retry.cancel }
      host := m.host.ask (.cancelTimer timer) }

/-- Gives up the lookup in flight, if there is one. -/
def cancelLookup (m : Machine) : Machine :=
  if m.session.resolver.inFlight then {
    m with
    session := { m.session with resolver := .idle }
    host := m.host.ask .cancelLookup }
  else m

/-- Closes the command link, if there is one. -/
def closeCommand (m : Machine) : Machine :=
  match m.session.command with
  | none => m
  | some link =>
    let (link, host) := link.close m.host
    { m with session := { m.session with command := some link }, host }

/-- Closes the notify link, if there is one. -/
def closeNotify (m : Machine) : Machine :=
  match m.session.notify with
  | none => m
  | some link =>
    let (link, host) := link.close m.host
    { m with session := { m.session with notify := some link }, host }

/-- Tears everything down: nothing is due, in flight or open, and nobody is known. -/
def reset (m : Machine) : Machine :=
  let m := m.cancelRetry.cancelLookup.closeCommand.closeNotify
  { m with
    session := {
      m.session with
      phase := .disconnected
      selfId := Peer.unsetId
      directory := .empty
      command := none
      notify := none } }

/-- Puts links over fresh sockets in the place of the old ones. -/
def openLinks (m : Machine) : Machine :=
  let m := m.closeCommand.closeNotify
  let framer : Wire.Framer := { limit := some m.config.maxResponseSize }
  let (command, host) := m.host.makeSocket .command
  let (notify, host) := host.makeSocket .notify
  { m with
    session := {
      m.session with
      command := some { socket := command, framer }
      notify := some { socket := notify, framer } }
    host }

end Machine

namespace SessionM

/-- The phase of the session. -/
def phase : SessionM Session.Phase := return (← get).session.phase

/-- Puts the session into a phase. -/
def enter (phase : Session.Phase) : SessionM Unit := modify (·.setPhase phase)

/-- Changes what the session remembers. -/
def remember (f : Session → Session) : SessionM Unit :=
  modify fun m => { m with session := f m.session }

/-- Goes on only with an integer that can be written. -/
def requireText (n : Int) : SessionM Unit :=
  if (Numeral.integerText? n).isNone then throw .numberTooLong else pure ()

/-- Goes on only with a request that can be written. -/
def ofRequest {α : Type} : Except Wire.RequestError α → SessionM α
  | .ok a => pure a
  | .error e => throw (.request e)

/-- Uses the command link; without one the answer is as given. -/
def withCommand {α : Type} (absent : α)
    (f : CommandLink → Host Note → α × CommandLink × Host Note) : SessionM α := do
  let m ← get
  match m.session.command with
  | none => return absent
  | some link =>
    let (answer, link, host) := f link m.host
    set { m with session := { m.session with command := some link }, host }
    return answer

/-- Uses the notify link; without one the answer is as given. -/
def withNotify {α : Type} (absent : α)
    (f : NotifyLink → Host Note → α × NotifyLink × Host Note) : SessionM α := do
  let m ← get
  match m.session.notify with
  | none => return absent
  | some link =>
    let (answer, link, host) := f link m.host
    set { m with session := { m.session with notify := some link }, host }
    return answer

/-- Starts an exchange with the session's server. -/
def startExchange (what : Exchange) (request : Bytes) : SessionM Bool := do
  let address := (← get).session.address
  withCommand false fun link host => link.start what request address host

/-- Looks a host up, unless a lookup is in flight or none can be made. -/
def startLookup (host : String) (port : Int) : SessionM Bool := do
  let m ← get
  match m.session.resolver.start? (m.host.policy.resolves m.host.moment) with
  | none => return false
  | some resolver =>
    set { m with
      session := { m.session with resolver }
      host := m.host.ask (.lookup host port) }
    return true

/-- Sets the retry timer, unless it is set. -/
def armRetry : SessionM Unit := do
  let m ← get
  match m.session.retry.arm? m.host.timers with
  | none => pure ()
  | some retry =>
    let (_, host) := m.host.schedule retry.delay
    set { m with session := { m.session with retry }, host }

end SessionM

end Rendezvous
