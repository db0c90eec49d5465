import Rendezvous.Session.Calls

/-!
# What a session does when something happens

The outcomes of lookups, timers and socket events, brought to the session as signals. What a
signal means depends on the phase; in a phase that has no use for it, it is ignored. Events of
sockets that no longer belong to a link never become signals.
-/

namespace Rendezvous.SessionM

open Wire

variable (tell : Event → SessionM Unit)

/-- What may happen to a session. -/
inductive Signal where
  | resolved (ip : String)
  | resolveFailed
  | retryDue
  | commandConnected
  | commandAnswered (what : Option Exchange) (response : Response)
  | commandRefused
  | commandLost
  | notifyConnected
  | notifyAnswered (response : Response)
  | notifyRefused
  | notifyLost

/-- The command connection is there: the queued request is written. -/
def writeRequest : SessionM Unit := do
  match ← withCommand .idle CommandLink.flush with
  | .failed => fail tell
  | _ => pure ()

/-- Reports listed peers in order, and then that signing in is complete; stops when the session
is no longer connected. -/
def announce : List Peer.Entry → SessionM Unit
  | [] => do
    if (← phase) = .connected then
      tell .signedIn
  | entry :: rest => do
    if (← phase) = .connected then
      tell (.peerConnected entry.id entry.name)
      announce rest

/-- The answer to signing in: the id, and a listing of the peers that are there. The long poll is
dialled before anything is reported. -/
def acceptSignIn (response : Response) : SessionM Unit := do
  if !response.isOk then
    fail tell
  else match response.peerId? with
    | none => fail tell
    | some id =>
      if id < 0 then
        fail tell
      else
        let s := (← get).session.assign id
        let (listed, directory) := s.directory.rebuild (Peer.readListing response.body)
        remember fun _ => { s with directory, phase := .connected }
        if ← withNotify false fun link host =>
            let (dialled, host) := host.connect link.socket s.address
            (dialled, link, host) then
          announce tell listed
        else
          fail tell

/-- The answer to a relay. -/
def acceptRelay (response : Response) : SessionM Unit := do
  if response.isOk then tell (.messageSent 0) else fail tell

/-- The answer to the exchange that signing out waited for. Of signing in, the id is kept, since
the server has to be told who leaves. -/
def acceptDeferred (what : Option Exchange) (response : Response) : SessionM Unit := do
  if !response.isOk then
    fail tell
  else
    match what with
    | some .signIn =>
      if let some id := response.peerId? then
        remember (·.assign id)
    | some .relay => tell (.messageSent 0)
    | _ => pure ()
    if (← phase) = .signingOutPending then
      discard (signOut tell)

/-- A peer joined, was renamed or left. A malformed entry is passed over. -/
def applyEntry (body : Bytes) : SessionM Unit := do
  match Peer.Entry.read? (Text.Utf8.decodeLossy body) with
  | none => pure ()
  | some entry =>
    let directory := (← get).session.directory
    if entry.connected then
      let (stored, directory) := directory.add entry.id entry.name
      remember ({ · with directory })
      if stored then
        tell (.peerConnected entry.id entry.name)
    else
      remember ({ · with directory := (directory.remove entry.id).2 })
      tell (.peerDisconnected entry.id)

/-- A peer sent a payload, or hangs up. -/
def acceptPayload (peer : Int) (payload : Bytes) : SessionM Unit := do
  if payload = hangUpToken then
    remember fun s => { s with directory := (s.directory.remove peer).2 }
    tell (.peerDisconnected peer)
  else
    tell (.message peer payload)

/-- A notification: under the session's own id it tells of the directory, under any other it is a
payload from that peer. -/
def acceptNotification (response : Response) : SessionM Unit := do
  if !response.isOk then
    fail tell
  else match response.peerId? with
    | none => fail tell
    | some id =>
      if id = (← get).session.selfId then
        applyEntry tell response.body
      else
        acceptPayload tell id response.body

/-- The notify connection is there: the wait is written. -/
def startWait : SessionM Unit := do
  let id := (← get).session.selfId
  if !(← ofRequest (← withNotify (.ok false) fun link host => link.issueWait id host)) then
    fail tell

/-- Puts the next wait in place. -/
def rearmWait : SessionM Unit := do
  let s := (← get).session
  if !(← ofRequest (← withNotify (.ok false) fun link host =>
      link.rearm s.selfId s.address host)) then
    fail tell

/-- What a signal means in each phase. -/
def react (signal : Signal) : SessionM Unit := do
  match ← phase, signal with
  | .resolving, .resolved ip =>
    remember fun s => { s with address := { s.address with host := ip } }
    discard (dial tell)
  | .resolving, .resolveFailed => failToConnect tell
  | .signingIn, .retryDue => discard (dial tell)
  | .signingIn, .commandConnected => writeRequest tell
  | .connected, .commandConnected => writeRequest tell
  | .signingOut, .commandConnected => writeRequest tell
  | .signingOutPending, .commandConnected => writeRequest tell
  | .signingIn, .commandAnswered _ response => acceptSignIn tell response
  | .connected, .commandAnswered _ response => acceptRelay tell response
  | .signingOutPending, .commandAnswered what response => acceptDeferred tell what response
  | .signingOut, .commandAnswered _ _ => finishSignOut tell
  | .signingIn, .commandRefused => armRetry
  | .connected, .commandRefused => fail tell
  | .signingOutPending, .commandRefused => finishSignOut tell
  | .signingOut, .commandRefused => finishSignOut tell
  | .signingIn, .commandLost => fail tell
  | .connected, .commandLost => fail tell
  | .signingOutPending, .commandLost => discard (signOut tell)
  | .signingOut, .commandLost => finishSignOut tell
  | .connected, .notifyConnected => startWait tell
  | .connected, .notifyAnswered response => acceptNotification tell response
  | .connected, .notifyLost => rearmWait tell
  | .connected, .notifyRefused => fail tell
  | _, _ => pure ()

/-- An event of the command socket. A close while nothing is in flight means nothing, unless the
connection was refused. -/
def onCommand : Channel.Event → SessionM Unit
  | .connected => react tell .commandConnected
  | .received bytes => do
    match ← withCommand (.ok none) fun link host => link.receive bytes host with
    | .error _ => fail tell
    | .ok none => pure ()
    | .ok (some (what, response)) => react tell (.commandAnswered what response)
  | .closed code => do
    let what ← withCommand none fun link host =>
      let (what, link) := link.abort
      (what, link, host)
    if code = Channel.refusedCode then
      react tell .commandRefused
    else if what.isSome then
      react tell .commandLost

/-- Brings notifications to the session in order. The answer says whether the session was still
connected after each of them. -/
def deliverAll : List Response → SessionM Bool
  | [] => return true
  | response :: rest => do
    react tell (.notifyAnswered response)
    if (← phase) = .connected then deliverAll rest else return false

/-- An event of the notify socket. The next wait is put in place after the last notification that
came with the same bytes. -/
def onNotify : Channel.Event → SessionM Unit
  | .connected => react tell .notifyConnected
  | .received bytes => do
    let (responses, outcome) ← withNotify ([], .more) fun link host =>
      let (responses, outcome, link, host) := link.receive bytes host
      ((responses, outcome), link, host)
    match outcome with
    | .failed _ => fail tell
    | _ =>
      if (← deliverAll tell responses) && !responses.isEmpty then
        rearmWait tell
  | .closed code => do
    withNotify () fun link host => ((), link.abort, host)
    if code = Channel.refusedCode then
      react tell .notifyRefused
    else
      react tell .notifyLost

/-- An event of a socket. Only the sockets of the current links are heard. -/
def onSocket (socket : Nat) (event : Channel.Event) : SessionM Unit := do
  modify fun m => { m with host := m.host.setPhase socket ((m.host.phaseOf socket).after event) }
  let s := (← get).session
  if s.command.any (·.socket = socket) then
    onCommand tell event
  else if s.notify.any (·.socket = socket) then
    onNotify tell event

/-- An answer to a lookup: an address, or none. -/
def onAnswer (ip : Option String) : SessionM Unit :=
  match ip with
  | some ip => react tell (.resolved ip)
  | none => react tell .resolveFailed

/-- The answer to the lookup in flight, which is over with it. -/
def onLookup (ip : Option String) : SessionM Unit := do
  remember ({ · with resolver := .idle })
  onAnswer tell ip

/-- A timer fires. Only the one that is due counts. -/
def onTimer (timer : Nat) : SessionM Unit := do
  let s := (← get).session
  match s.retry.fire? timer with
  | none => pure ()
  | some retry =>
    remember ({ · with retry })
    react tell .retryDue

end Rendezvous.SessionM
