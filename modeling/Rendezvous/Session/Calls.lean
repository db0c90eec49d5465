import Rendezvous.Session.Machine

/-!
# What a caller asks

Signing in, relaying and signing out, as far as they go at once. The outcomes follow as events.
Every computation that may report to the observer takes the way of telling it as an argument, so
that what the observer does when it is told is open here.
-/

namespace Rendezvous.SessionM

open Wire

variable (tell : Event → SessionM Unit)

/-- Ends the session after a failure. -/
def fail : SessionM Unit := do
  modify Machine.reset
  tell .disconnected

/-- Ends the session because the server was not reached. -/
def failToConnect : SessionM Unit := do
  modify Machine.reset
  tell .connectionFailure

/-- Opens fresh links and starts to sign in. A name that cannot be written is found out only when
the fresh links are there, and they stay, with nothing in flight. -/
def dial : SessionM Bool := do
  modify Machine.openLinks
  let request ← ofRequest (Request.signInAs (← get).session.clientName >>= Request.encode)
  if ← startExchange .signIn request then
    enter .signingIn
    return true
  failToConnect tell
  return false

/-- Starts to sign in. Refused unless the session is disconnected and server and name are given.
A port that is not positive stands for the default. -/
def connect (server : Option String) (port : Option Int) (name : Option Text.Raw) :
    SessionM Bool := do
  let m ← get
  let server := server.getD m.config.server
  let port := port.getD m.config.port
  let name := name.getD m.config.clientName
  if m.session.phase ≠ .disconnected || server.isEmpty || name.isEmpty then
    tell .connectionFailure
    return false
  let port := if port ≤ 0 then Config.defaultPort else port
  remember ({ · with address := ⟨server, port⟩, clientName := name })
  requireText port
  if Address.needsLookup server then
    enter .resolving
    if ← startLookup server port then
      return true
    failToConnect tell
    return false
  dial tell

/-- Relays a payload to a peer, if it has bytes. Refused unless the session is connected, the id is
one a peer can have, and no exchange is in flight. -/
def sendTo (peer : Int) (payload : Except RequestError Bytes) : SessionM Bool := do
  let s := (← get).session
  if s.phase ≠ .connected then
    return false
  if !s.isConnected || peer = Peer.unsetId || peer < 0 || s.command.any CommandLink.isBusy then
    requireText peer
    return false
  let request ← ofRequest
    (payload >>= fun body => Request.message s.selfId peer body >>= Request.encode)
  if ← startExchange .relay request then
    return true
  fail tell
  return false

/-- The end of signing out. -/
def finishSignOut : SessionM Unit := fail tell

/-- Leaves the server. The long poll is dropped at once; the request goes out now if the command
link is idle, and after the exchange in flight otherwise. Before an id is assigned there is
nothing to tell the server. -/
def signOut : SessionM Bool := do
  let phase ← phase
  if phase = .disconnected || phase = .signingOut then
    return true
  modify fun m => m.cancelRetry.cancelLookup.closeNotify
  let s := (← get).session
  if s.command.any CommandLink.isBusy then
    enter .signingOutPending
    return true
  if s.selfId = Peer.unsetId then
    fail tell
    return true
  enter .signingOut
  let request ← ofRequest (Request.signOut s.selfId >>= Request.encode)
  if ← startExchange .signOut request then
    return true
  finishSignOut tell
  return false

/-- Carries out a call. Closing has no answer. -/
def perform : Call → SessionM (Option Bool)
  | .connect server port name => some <$> connect tell server port name
  | .send peer text => some <$> sendTo tell peer (Request.payloadOf text)
  | .sendBytes peer payload => some <$> sendTo tell peer (.ok payload)
  | .hangUp peer => some <$> sendTo tell peer (.ok hangUpToken)
  | .signOut => some <$> signOut tell
  | .close => do
    modify Machine.reset
    return none

end Rendezvous.SessionM
