import Mathlib.Logic.Relation
import Rendezvous.Proofs.Session.Logic
import Rendezvous.Proofs.Session.Machine
import Rendezvous.Session.Step

/-!
# What a session can do

Everything that a call or a signal does to a machine is a sequence of changes, and every kind of
change is listed here with what is known where it is made. A condition that each of them keeps is
kept by all runs, whatever the observer does when it is told and wherever a fault stops the
session.
-/

namespace Rendezvous

/-- Whether the session has not heard of any peer yet, judged by its phase. -/
def Session.IsEarly (s : Session) : Prop :=
  s.phase = .disconnected ∨ s.phase = .resolving ∨ s.phase = .signingIn

/-- Whether an event of the command connection brings an id late: it completes the answer to signing
in when the session is about to leave. -/
def Session.BringsLate (s : Session) (event : Channel.Event) (id : Int) : Prop :=
  s.phase = .signingOutPending ∧ ∃ c bytes response, event = .received bytes ∧
    s.command = some c ∧ c.exchange = some .signIn ∧
    (c.framer.feed bytes).poll.1 = .ok (some response) ∧ response.isOk = true ∧
    response.peerId? = some id

/-- Whether a step brings an id late. -/
def Machine.BringsLate (m : Machine) (s : Step) (id : Int) : Prop :=
  ∃ ref event socket, s = .socket ref event ∧ m.find? ref = some socket ∧
    m.session.command.any (·.socket = socket) = true ∧ m.session.BringsLate event id

namespace SessionM

variable {α : Type} {m : Machine} {P : Machine → Prop}

/-- The machine that a computation leaves, with an answer or at a fault. -/
def after (x : SessionM α) (m : Machine) : Machine := (x m).2

/-- Where a value does not matter, nor whether there is a fault, only the machine after it counts.
-/
theorem ensures_const {x : SessionM α} : Ensures x m (fun _ ↦ P) P ↔ P (after x m) := by
  unfold Ensures after
  generalize x m = out
  rcases out with ⟨_ | _, _⟩ <;> rfl

/-- The machine that a computation is known to leave. -/
theorem after_eq {x : SessionM α} {m' : Machine}
    (h : Ensures x m (fun _ after ↦ after = m') fun after ↦ after = m') : after x m = m' :=
  (ensures_const (P := fun after ↦ after = m')).1 h

/-- A computation leaves the same machine to a caller. -/
theorem runWith_snd (x : SessionM Reply) : (m.runWith x).2 = after x m := by
  unfold Machine.runWith after
  generalize x m = out
  rcases out with ⟨_ | _, _⟩ <;> rfl

end SessionM

namespace Machine

open SessionM

/-- What may become of a machine at one go, where an answer to signing in that comes late, when the
session is about to leave, may only bring certain ids. Where the observer is told, what it does in
return is part of the change. -/
inductive Change (late : Int → Prop) (tell : Event → SessionM Unit) (m : Machine) :
    Machine → Prop where
  /-- The session ends after a failure. -/
  | fail : Change late tell m (after (tell .disconnected) m.reset)
  /-- The session ends because the server was not reached. -/
  | giveUp (early : m.session.IsEarly) :
      Change late tell m (after (tell .connectionFailure) m.reset)
  /-- A connection is refused to the caller. -/
  | refuse : Change late tell m (after (tell .connectionFailure) m)
  /-- The server and the own name are settled. -/
  | name (ended : m.session.phase = .disconnected) (address : Address) (clientName : Text.Raw) :
      Change late tell m { m with session := { m.session with address, clientName } }
  /-- The server is looked up. -/
  | lookUp (ended : m.session.phase = .disconnected) (resolver : Resolver) (host : String)
      (port : Int) : Change late tell m {
        m.setPhase .resolving with
        session := { (m.setPhase .resolving).session with resolver }
        host := m.host.ask (.lookup host port) }
  /-- The address of the server is known. -/
  | resolve (phase : m.session.phase = .resolving) (ip : String) :
      Change late tell m
        { m with session := { m.session with address := { m.session.address with host := ip } } }
  /-- Fresh links are opened, and signing in is on its way. -/
  | dial (early : m.session.IsEarly) (request : Bytes) {c : CommandLink}
      (command : m.openLinks.session.command = some c)
      (dialled : (c.start .signIn request m.openLinks.session.address m.openLinks.host).1 = true)
      (written :
        (Wire.Request.signInAs m.openLinks.session.clientName >>= Wire.Request.encode) =
          .ok request) :
      Change late tell m ((m.openLinks.putCommand
        (c.start .signIn request m.openLinks.session.address m.openLinks.host).2).setPhase
          .signingIn)
  /-- Fresh links are opened, and the server is not dialled. -/
  | dialRefused (early : m.session.IsEarly) (request : Bytes) {c : CommandLink}
      (command : m.openLinks.session.command = some c) :
      Change late tell m (after (tell .connectionFailure) (m.openLinks.putCommand
        (c.start .signIn request m.openLinks.session.address m.openLinks.host).2).reset)
  /-- Fresh links are there, and the name to sign in under cannot be written. -/
  | dialUnwritten (early : m.session.IsEarly) : Change late tell m m.openLinks
  /-- A relay is on its way, or is not dialled. -/
  | relay (phase : m.session.phase = .connected) (request : Bytes) {c : CommandLink}
      (command : m.session.command = some c) (idle : c.exchange = none) {peer : Int}
      {payload : Bytes} (written :
        (Wire.Request.message m.session.selfId peer payload >>= Wire.Request.encode) =
          .ok request) :
      Change late tell m (m.putCommand (c.start .relay request m.session.address m.host).2)
  /-- Leaving begins. -/
  | quiet : Change late tell m m.quiet
  /-- Signing out has to wait. -/
  | pend (busy : m.session.exchange? ≠ none) : Change late tell m (m.setPhase .signingOutPending)
  /-- Signing out is due. -/
  | leave (assigned : m.session.selfId ≠ Peer.unsetId) (idle : m.session.exchange? = none) :
      Change late tell m (m.setPhase .signingOut)
  /-- Signing out is on its way, or is not dialled. -/
  | signOut (phase : m.session.phase = .signingOut) (request : Bytes) {c : CommandLink}
      (command : m.session.command = some c) (idle : c.exchange = none)
      (assigned : m.session.selfId ≠ Peer.unsetId)
      (written :
        (Wire.Request.signOut m.session.selfId >>= Wire.Request.encode) = .ok request) :
      Change late tell m (m.putCommand (c.start .signOut request m.session.address m.host).2)
  /-- The queued request is written. -/
  | flush {c : CommandLink} (command : m.session.command = some c) :
      Change late tell m (m.putCommand (c.flush m.host).2)
  /-- Bytes come over the command connection. -/
  | receive {c : CommandLink} (command : m.session.command = some c) (bytes : Bytes) :
      Change late tell m (m.putCommand (c.receive bytes m.host).2)
  /-- The command connection is lost. -/
  | abort {c : CommandLink} (command : m.session.command = some c) :
      Change late tell m (m.putCommand (c.abort.2, m.host))
  /-- The session is signed in: the long poll is dialled, and the peers are announced. -/
  | signIn (phase : m.session.phase = .signingIn) (idle : m.session.exchange? = none) {id : Int}
      (writable : Numeral.IsWritable id) (assigned : 0 ≤ id) (entries : List Peer.Entry)
      {n : NotifyLink} (notify : m.session.notify = some n) :
      Change late tell m (after
        (announce tell ((m.session.assign id).directory.rebuild entries).1)
        (putNotify
          { m with session := {
              m.session.assign id with
              directory := ((m.session.assign id).directory.rebuild entries).2
              phase := .connected } }
          (n, (m.host.connect n.socket m.session.address).2)))
  /-- A relay is over. -/
  | sent (phase : m.session.phase = .connected ∨ m.session.phase = .signingOutPending) :
      Change late tell m (after (tell (.messageSent 0)) m)
  /-- The answer to signing in comes late, when the session is about to leave: the id is kept. -/
  | adopt (phase : m.session.phase = .signingOutPending) {c : CommandLink}
      (command : m.session.command = some c) (signingIn : c.exchange = some .signIn)
      (bytes : Bytes) (ended : (c.receive bytes m.host).2.1.exchange = none) {id : Int}
      (writable : Numeral.IsWritable id) (brought : late id) :
      Change late tell m
        { m.putCommand (c.receive bytes m.host).2 with
          session := (m.putCommand (c.receive bytes m.host).2).session.assign id }
  /-- A peer joined or was renamed. -/
  | enter (phase : m.session.phase = .connected) {id : Int}
      (other : id ≠ m.session.directory.selfId) (name : String) :
      Change late tell m (after (tell (.peerConnected id name))
        { m with session := {
            m.session with directory := (m.session.directory.add id name).2 } })
  /-- A peer left or hung up. -/
  | depart (phase : m.session.phase = .connected) (id : Int) :
      Change late tell m (after (tell (.peerDisconnected id))
        { m with session := {
            m.session with directory := (m.session.directory.remove id).2 } })
  /-- A peer sent a payload. -/
  | message (phase : m.session.phase = .connected) (peer : Int) (payload : Bytes) :
      Change late tell m (after (tell (.message peer payload)) m)
  /-- A wait is written on the open connection. -/
  | issueWait {n : NotifyLink} (notify : m.session.notify = some n)
      (phase : m.session.phase = .connected) :
      Change late tell m (m.putNotify (n.issueWait m.session.selfId m.host).2)
  /-- The next wait is put in place. -/
  | rearm {n : NotifyLink} (notify : m.session.notify = some n)
      (phase : m.session.phase = .connected) :
      Change late tell m (m.putNotify (n.rearm m.session.selfId m.session.address m.host).2)
  /-- Bytes come over the notify connection. -/
  | receiveNotify {n : NotifyLink} (notify : m.session.notify = some n) (bytes : Bytes) :
      Change late tell m (m.putNotify (n.receive bytes m.host).2.2)
  /-- The notify connection is lost. -/
  | abortNotify {n : NotifyLink} (notify : m.session.notify = some n) :
      Change late tell m (m.putNotify (n.abort, m.host))
  /-- Signing in is tried again later. -/
  | arm (phase : m.session.phase = .signingIn) (disarmed : m.session.retry.isArmed = false) :
      Change late tell m {
        m with
        session := { m.session with
          retry := { m.session.retry with live := some m.host.timers } }
        host := (m.host.schedule m.session.retry.delay).2 }
  /-- The retry is due. -/
  | fire : Change late tell m
      { m with session := { m.session with retry := m.session.retry.cancel } }
  /-- The lookup in flight is over. -/
  | lookedUp : Change late tell m { m with session := { m.session with resolver := .idle } }
  /-- A socket has an event. -/
  | socket (socket : Nat) (phase : Channel.Phase) :
      Change late tell m { m with host := m.host.setPhase socket phase }
  /-- An observer is registered. -/
  | observe : Change late tell m { m with observed := true }
  /-- The host grants other things than before. -/
  | grant (f : Policy → Policy) : Change late tell m (m.grant f)

/-- What may become of a machine. -/
def Becomes (late : Int → Prop) (tell : Event → SessionM Unit) (base m : Machine) : Prop :=
  Relation.ReflTransGen (Change late tell) base m

variable {late : Int → Prop} {tell : Event → SessionM Unit} {base m m' : Machine}
  {P : Machine → Prop}

/-- A machine may stay as it is. -/
theorem Becomes.refl (m : Machine) : m.Becomes late tell m := Relation.ReflTransGen.refl

/-- One change more. -/
theorem Becomes.change (h : base.Becomes late tell m) (hchange : m.Change late tell m') :
    base.Becomes late tell m' := .tail h hchange

/-- What every change keeps is kept. -/
theorem Becomes.induction (h : base.Becomes late tell m) (hbase : P base)
    (hchange : ∀ m m', P m → m.Change late tell m' → P m') : P m := by
  induction h with
  | refl => exact hbase
  | tail _ hstep ih => exact hchange _ _ ih hstep

end Machine

namespace SessionM

open Machine

variable {late : Int → Prop} {tell : Event → SessionM Unit} {base m : Machine} {α : Type}

/-! ### Calls -/

private theorem becomes_fail (h : base.Becomes late tell m) :
    Ensures (fail tell) m (fun _ ↦ base.Becomes late tell) (base.Becomes late tell) := by
  rw [fail, ensures_bind, ensures_modify, ensures_const]
  exact h.change .fail

private theorem becomes_failToConnect (h : base.Becomes late tell m) (hearly : m.session.IsEarly) :
    Ensures (failToConnect tell) m (fun _ ↦ base.Becomes late tell) (base.Becomes late tell) := by
  rw [failToConnect, ensures_bind, ensures_modify, ensures_const]
  exact h.change (.giveUp hearly)

private theorem becomes_dial (h : base.Becomes late tell m) (hearly : m.session.IsEarly) :
    Ensures (dial tell) m (fun _ ↦ base.Becomes late tell) (base.Becomes late tell) := by
  obtain ⟨c, hcommand⟩ : ∃ c, m.openLinks.session.command = some c :=
    ⟨_, congrArg Session.command m.session_openLinks⟩
  simp only [dial, ensures_bind, ensures_modify, ensures_get, ensures_ofRequest, ensures_ite,
    ensures_enter, ensures_pure]
  refine ⟨fun request hrequest ↦ ?_, fun _ _ ↦ h.change (.dialUnwritten hearly)⟩
  rw [ensures_startExchange_of_eq hcommand]
  constructor
  · intro hdialled
    exact h.change (.dial hearly request hcommand hdialled hrequest)
  · intro _
    rw [failToConnect, ensures_bind, ensures_modify, ensures_const]
    exact h.change (.dialRefused hearly request hcommand)

/-- Where no lookup can be made, the session is torn down as if none had been wanted. -/
theorem becomes_startLookup (h : base.Becomes late tell m) (hover : m.session.phase = .disconnected)
    (host : String) (port : Int) :
    Ensures (startLookup host port) (m.setPhase .resolving)
      (fun started after ↦ (started = true → base.Becomes late tell after) ∧
        (¬ started = true → Ensures (failToConnect tell) after (fun _ ↦ base.Becomes late tell)
          (base.Becomes late tell))) (base.Becomes late tell) := by
  rw [ensures_startLookup]
  constructor
  · intro _
    have hreset : (m.setPhase .resolving).reset = m.reset := m.reset_known .resolving _ _
    refine ⟨by simp, fun _ ↦ ?_⟩
    rw [failToConnect, ensures_bind, ensures_modify, ensures_const, hreset]
    exact h.change (.giveUp (.inl hover))
  · intro resolver _
    exact ⟨fun _ ↦ h.change (.lookUp hover resolver host port), by simp⟩

private theorem becomes_connect (h : base.Becomes late tell m) (server : Option String)
    (port : Option Int) (name : Option Text.Raw) :
    Ensures (connect tell server port name) m (fun _ ↦ base.Becomes late tell)
      (base.Becomes late tell) := by
  simp only [connect, ensures_bind, ensures_get, ensures_ite, ensures_pure, ensures_remember,
    ensures_requireText, ensures_enter]
  constructor
  · intro _
    exact ensures_const.2 (h.change .refuse)
  · intro hfree
    have hover : m.session.phase = .disconnected := by
      simp only [ne_eq, Bool.or_eq_true, decide_eq_true_eq, not_or, Decidable.not_not] at hfree
      exact hfree.1.1
    have hnamed (address : Address) (clientName : Text.Raw) :
        base.Becomes late tell { m with session := { m.session with address, clientName } } :=
      h.change (.name hover address clientName)
    refine ⟨fun _ ↦ ⟨fun _ ↦ ?_, fun _ ↦ becomes_dial (hnamed _ _) (.inl hover)⟩,
      fun _ ↦ hnamed _ _⟩
    exact becomes_startLookup (hnamed _ _) (by exact hover) _ _

private theorem becomes_sendTo (h : base.Becomes late tell m) (peer : Int)
    (payload : Except Wire.RequestError Bytes) :
    Ensures (sendTo tell peer payload) m (fun _ ↦ base.Becomes late tell)
      (base.Becomes late tell) := by
  simp only [sendTo, ensures_bind, ensures_get, ensures_ite, ensures_pure, ensures_requireText,
    ensures_ofRequest, ensures_startExchange]
  refine ⟨fun _ ↦ h, fun hconnected ↦ ⟨fun _ ↦ ⟨fun _ ↦ h, fun _ ↦ h⟩,
    fun hfree ↦ ⟨fun request hrequest ↦ ⟨fun _ ↦ ?_, fun c hcommand ↦ ?_⟩, fun _ _ ↦ h⟩⟩⟩
  · exact ⟨by simp, fun _ ↦ becomes_fail h⟩
  · have hphase := Decidable.not_not.1 hconnected
    have hidle : c.exchange = none := by
      simp only [hcommand, Option.any_some, Bool.or_eq_true, not_or, CommandLink.isBusy,
        Option.isSome_iff_ne_none, ne_eq, Decidable.not_not] at hfree
      exact hfree.2
    obtain ⟨body, -, hwritten⟩ := Wire.Request.exists_of_bind_eq_ok hrequest
    have hsent := h.change (.relay hphase request hcommand hidle hwritten)
    exact ⟨fun _ ↦ hsent, fun _ ↦ becomes_fail hsent⟩

private theorem becomes_signOut (h : base.Becomes late tell m) :
    Ensures (signOut tell) m (fun _ ↦ base.Becomes late tell) (base.Becomes late tell) := by
  simp only [signOut, ensures_bind, ensures_phase, ensures_ite, ensures_pure, ensures_modify,
    ensures_get, ensures_enter, ensures_ofRequest, ensures_startExchange, quiet_eq]
  have hquiet := h.change .quiet
  refine ⟨fun _ ↦ h, fun _ ↦ ⟨fun hbusy ↦ hquiet.change (.pend ?_),
    fun hidle ↦ ⟨fun _ ↦ becomes_fail hquiet, fun hassigned ↦ ?_⟩⟩⟩
  · exact Session.exchange?_ne_none_of_isBusy hbusy
  · have hnone := Session.exchange?_eq_none_of_not_isBusy hidle
    have hleft := hquiet.change (.leave hassigned hnone)
    refine ⟨fun request hrequest ↦ ⟨fun _ ↦ ⟨by simp, fun _ ↦ becomes_fail hleft⟩,
      fun c hcommand ↦ ?_⟩, fun _ _ ↦ hleft⟩
    have hc : c.exchange = none := (Session.exchange?_of_command hcommand).symm.trans hnone
    have hsent := hleft.change (.signOut rfl request hcommand hc hassigned hrequest)
    exact ⟨fun _ ↦ hsent, fun _ ↦ becomes_fail hsent⟩

/-- A call does what changes do, but for closing, which is told to nobody. -/
theorem becomes_perform (h : base.Becomes late tell m) {c : Call} (hc : c ≠ .close) :
    Ensures (perform tell c) m (fun _ ↦ base.Becomes late tell) (base.Becomes late tell) := by
  cases c with
  | connect server port name => exact ensures_map.2 (becomes_connect h server port name)
  | send peer text => exact ensures_map.2 (becomes_sendTo h peer _)
  | sendBytes peer payload => exact ensures_map.2 (becomes_sendTo h peer _)
  | hangUp peer => exact ensures_map.2 (becomes_sendTo h peer _)
  | signOut => exact ensures_map.2 (becomes_signOut h)
  | close => exact absurd rfl hc

/-! ### The command link -/

private theorem becomes_writeRequest (h : base.Becomes late tell m) :
    Ensures (writeRequest tell) m (fun _ ↦ base.Becomes late tell) (base.Becomes late tell) := by
  rw [writeRequest, ensures_bind, ensures_withCommand]
  refine ⟨fun _ ↦ ensures_pure.2 h, fun c hcommand ↦ ?_⟩
  have hwritten := h.change (.flush hcommand)
  cases (c.flush m.host).1 with
  | failed => exact becomes_fail hwritten
  | idle => exact ensures_pure.2 hwritten
  | written size => exact ensures_pure.2 hwritten

private theorem becomes_acceptSignIn (h : base.Becomes late tell m)
    (hphase : m.session.phase = .signingIn)
    (hidle : m.session.exchange? = none) (response : Wire.Response) :
    Ensures (acceptSignIn tell response) m (fun _ ↦ base.Becomes late tell)
      (base.Becomes late tell) := by
  rw [acceptSignIn, ensures_ite]
  refine ⟨fun _ ↦ becomes_fail h, fun _ ↦ ?_⟩
  cases hread : response.peerId? with
  | none => exact becomes_fail h
  | some id =>
    have hwritable := Wire.Response.isWritable_of_peerId? hread
    -- what was learnt of the server is forgotten where the long poll is not dialled
    have hend (directory : Peer.Directory) : Ensures (fail tell)
        { m with session := { m.session.assign id with directory, phase := .connected } }
        (fun _ ↦ base.Becomes late tell) (base.Becomes late tell) := by
      rw [fail, ensures_bind, ensures_modify, ensures_const]
      exact m.reset_known .connected id directory ▸ h.change .fail
    simp only [ensures_ite, ensures_bind, ensures_get, ensures_remember, ensures_withNotify]
    refine ⟨fun _ ↦ becomes_fail h, fun hassigned ↦ ⟨fun _ ↦ ⟨by simp, fun _ ↦ hend _⟩,
      fun n hnotify ↦ ⟨fun _ ↦ ?_, fun hrefused ↦ ?_⟩⟩⟩
    · exact ensures_const.2 (h.change (.signIn hphase hidle hwritable (by omega) _ hnotify))
    · have hkept := m.host.snd_connect_of_refused hrefused
      have hput (directory : Peer.Directory) (host : Host Note) (hhost : host = m.host) :
          putNotify { m with
            session := { m.session.assign id with directory, phase := .connected } } (n, host) =
          { m with session := { m.session.assign id with directory, phase := .connected } } := by
        subst hhost
        exact putNotify_of_eq hnotify
      exact hput _ _ hkept ▸ hend _

private theorem becomes_acceptRelay (h : base.Becomes late tell m)
    (hphase : m.session.phase = .connected) (response : Wire.Response) :
    Ensures (acceptRelay tell response) m (fun _ ↦ base.Becomes late tell)
      (base.Becomes late tell) := by
  rw [acceptRelay, ensures_ite]
  exact ⟨fun _ ↦ ensures_const.2 (h.change (.sent (.inl hphase))), fun _ ↦ becomes_fail h⟩

/-- The id that signing in assigned is kept only where the exchange was to sign in. -/
theorem becomes_acceptDeferred (h : base.Becomes late tell m)
    (hphase : m.session.phase = .signingOutPending) {what : Option Exchange}
    {response : Wire.Response}
    (hadopt : ∀ id, what = some .signIn → response.isOk = true → response.peerId? = some id →
      base.Becomes late tell { m with session := m.session.assign id }) :
    Ensures (acceptDeferred tell what response) m (fun _ ↦ base.Becomes late tell)
      (base.Becomes late tell) := by
  have hrest (m' : Machine) (h' : base.Becomes late tell m') :
      Ensures (do
        if (← phase) = .signingOutPending then
          discard (signOut tell)) m' (fun _ ↦ base.Becomes late tell) (base.Becomes late tell) := by
    simp only [ensures_bind, ensures_phase, ensures_ite, ensures_discard, ensures_pure]
    exact ⟨fun _ ↦ becomes_signOut h', fun _ ↦ h'⟩
  rw [acceptDeferred, ensures_ite]
  refine ⟨fun _ ↦ becomes_fail h, fun hok ↦ ?_⟩
  rcases what with _ | _ | _ | _
  · exact hrest m h
  · cases hread : response.peerId? with
    | none => exact hrest m h
    | some assigned =>
      rw [ensures_bind, ensures_remember]
      exact hrest _ (hadopt assigned rfl (by simpa using hok) hread)
  · rw [ensures_bind]
    exact (ensures_const.2 (h.change (.sent (.inr hphase)))).mono (fun _ ↦ hrest) fun _ ↦ id
  · exact hrest m h

private theorem becomes_armRetry (h : base.Becomes late tell m)
    (hphase : m.session.phase = .signingIn) :
    Ensures armRetry m (fun _ ↦ base.Becomes late tell) (base.Becomes late tell) := by
  rw [ensures_armRetry]
  refine ⟨fun _ ↦ h, fun retry hretry ↦ ?_⟩
  rw [RetryTimer.arm?] at hretry
  split at hretry
  · cases hretry
  · next hdisarmed =>
    cases hretry
    exact h.change (.arm hphase (Bool.not_eq_true _ ▸ hdisarmed))

/-! ### The notify link -/

private theorem becomes_applyEntry (h : base.Becomes late tell m)
    (hphase : m.session.phase = .connected) (body : Bytes) :
    Ensures (applyEntry tell body) m (fun _ ↦ base.Becomes late tell) (base.Becomes late tell) := by
  rw [applyEntry]
  cases Peer.Entry.read? (Text.Utf8.decodeLossy body) with
  | none => exact ensures_pure.2 h
  | some entry =>
    simp only [ensures_bind, ensures_get, ensures_ite, ensures_remember, ensures_pure]
    refine ⟨fun _ ↦ ?_, fun _ ↦ ensures_const.2 (h.change (.depart hphase entry.id))⟩
    by_cases hown : entry.id = m.session.directory.selfId
    · rw [hown, Peer.Directory.add_self]
      exact ⟨by simp, fun _ ↦ h⟩
    · have hentered := h.change (.enter hphase hown entry.name)
      rw [Peer.Directory.add_of_ne hown] at hentered ⊢
      exact ⟨fun _ ↦ ensures_const.2 hentered, by simp⟩

private theorem becomes_acceptPayload (h : base.Becomes late tell m)
    (hphase : m.session.phase = .connected) (peer : Int) (payload : Bytes) :
    Ensures (acceptPayload tell peer payload) m (fun _ ↦ base.Becomes late tell)
      (base.Becomes late tell) := by
  simp only [acceptPayload, ensures_ite, ensures_bind, ensures_remember]
  exact ⟨fun _ ↦ ensures_const.2 (h.change (.depart hphase peer)),
    fun _ ↦ ensures_const.2 (h.change (.message hphase peer payload))⟩

private theorem becomes_acceptNotification (h : base.Becomes late tell m)
    (hphase : m.session.phase = .connected) (response : Wire.Response) :
    Ensures (acceptNotification tell response) m (fun _ ↦ base.Becomes late tell)
      (base.Becomes late tell) := by
  rw [acceptNotification, ensures_ite]
  refine ⟨fun _ ↦ becomes_fail h, fun _ ↦ ?_⟩
  cases response.peerId? with
  | none => exact becomes_fail h
  | some id =>
    simp only [ensures_bind, ensures_get, ensures_ite]
    exact ⟨fun _ ↦ becomes_applyEntry h hphase _, fun _ ↦ becomes_acceptPayload h hphase id _⟩

private theorem becomes_startWait (h : base.Becomes late tell m)
    (hphase : m.session.phase = .connected) :
    Ensures (startWait tell) m (fun _ ↦ base.Becomes late tell) (base.Becomes late tell) :=
  ensures_startWait (fun _ ↦ becomes_fail) (fun _ ↦ id) (fun _ ↦ id) h fun _ hnotify ↦
    h.change (.issueWait hnotify hphase)

private theorem becomes_rearmWait (h : base.Becomes late tell m)
    (hphase : m.session.phase = .connected) :
    Ensures (rearmWait tell) m (fun _ ↦ base.Becomes late tell) (base.Becomes late tell) :=
  ensures_rearmWait (fun _ ↦ becomes_fail) (fun _ ↦ id) (fun _ ↦ id) h fun _ hnotify ↦
    h.change (.rearm hnotify hphase)

/-! ### Signals -/

/-- What is known where a signal comes up: an exchange that was answered is in flight no more, and
an answer to signing in may still assign the id. -/
def Signal.IsPlausible (late : Int → Prop) (tell : Event → SessionM Unit) (base m : Machine) :
    Signal → Prop
  | .commandAnswered what response => m.session.exchange? = none ∧
      (m.session.phase = .signingOutPending → ∀ id, what = some .signIn → response.isOk = true →
        response.peerId? = some id →
          base.Becomes late tell { m with session := m.session.assign id })
  | _ => True

/-- Nothing comes of a plausible signal but changes. -/
theorem becomes_react (h : base.Becomes late tell m) {signal : Signal}
    (hsignal : signal.IsPlausible late tell base m) :
    Ensures (react tell signal) m (fun _ ↦ base.Becomes late tell) (base.Becomes late tell) := by
  rw [react, ensures_bind, ensures_phase]
  split
  · next hphase =>
    simp only [ensures_bind, ensures_remember, ensures_discard]
    exact becomes_dial (h.change (.resolve hphase _)) (.inr (.inl hphase))
  · next hphase => exact becomes_failToConnect h (.inr (.inl hphase))
  · next hphase => exact ensures_discard.2 (becomes_dial h (.inr (.inr hphase)))
  · exact becomes_writeRequest h
  · exact becomes_writeRequest h
  · exact becomes_writeRequest h
  · exact becomes_writeRequest h
  · next hphase => exact becomes_acceptSignIn h hphase hsignal.1 _
  · next hphase => exact becomes_acceptRelay h hphase _
  · next hphase => exact becomes_acceptDeferred h hphase (hsignal.2 hphase)
  · exact becomes_fail h
  · next hphase => exact becomes_armRetry h hphase
  · exact becomes_fail h
  · exact becomes_fail h
  · exact becomes_fail h
  · exact becomes_fail h
  · exact becomes_fail h
  · exact ensures_discard.2 (becomes_signOut h)
  · exact becomes_fail h
  · next hphase => exact becomes_startWait h hphase
  · next hphase => exact becomes_acceptNotification h hphase _
  · next hphase => exact becomes_rearmWait h hphase
  · exact becomes_fail h
  · exact ensures_pure.2 h

/-! ### Events of sockets -/

private theorem becomes_onCommand (h : base.Becomes late tell m) {event : Channel.Event}
    (hlate : ∀ id, m.session.BringsLate event id → late id) :
    Ensures (onCommand tell event) m (fun _ ↦ base.Becomes late tell)
      (base.Becomes late tell) := by
  cases event with
  | connected => exact becomes_react h trivial
  | received bytes =>
    rw [onCommand, ensures_bind, ensures_withCommand]
    refine ⟨fun _ ↦ ensures_pure.2 h, fun c hcommand ↦ ?_⟩
    have hreceived := h.change (.receive hcommand bytes)
    obtain ⟨-, ⟨-, -, hnot⟩ | ⟨-, hover, response, hfound⟩⟩ := c.receive_cases bytes m.host
    · cases hread : (c.receive bytes m.host).1 with
      | error e => exact becomes_fail hreceived
      | ok found =>
        cases found with
        | none => exact ensures_pure.2 hreceived
        | some found => exact absurd hread (hnot found)
    · rw [hfound]
      refine becomes_react hreceived ⟨hover, fun hphase id hwhat hok hread ↦ ?_⟩
      have hpoll := CommandLink.poll_of_receive hfound
      have hbrought : m.session.BringsLate (.received bytes) id :=
        ⟨hphase, c, bytes, response, rfl, hcommand, hwhat, hpoll, hok, hread⟩
      exact h.change (.adopt (by exact hphase) hcommand hwhat bytes hover
        (Wire.Response.isWritable_of_peerId? hread) (hlate id hbrought))
  | closed code =>
    rw [onCommand, ensures_bind, ensures_withCommand]
    have hreact (m' : Machine) (h' : base.Becomes late tell m') (what : Option Exchange) :
        Ensures (do
          if code = Channel.refusedCode then
            react tell .commandRefused
          else if what.isSome then
            react tell .commandLost) m' (fun _ ↦ base.Becomes late tell)
              (base.Becomes late tell) := by
      simp only [ensures_ite, ensures_pure]
      exact ⟨fun _ ↦ becomes_react h' trivial, fun _ ↦ ⟨fun _ ↦ becomes_react h' trivial,
        fun _ ↦ h'⟩⟩
    exact ⟨fun _ ↦ hreact m h none, fun c hcommand ↦ hreact _ (h.change (.abort hcommand)) _⟩

/-- The induction is on the notifications still to be brought. A session that was connected after
each of them is connected after the last. -/
theorem becomes_deliverAll (h : base.Becomes late tell m) (responses : List Wire.Response) :
    Ensures (deliverAll tell responses) m
      (fun answer after ↦ base.Becomes late tell after ∧ (answer = true →
        m.session.phase = .connected ∨ responses ≠ [] → after.session.phase = .connected))
      (base.Becomes late tell) := by
  induction responses generalizing m with
  | nil => exact ensures_pure.2 ⟨h, fun _ hphase ↦ hphase.resolve_right (· rfl)⟩
  | cons response rest ih =>
    simp only [deliverAll, ensures_bind, ensures_phase, ensures_ite, ensures_pure]
    have hsignal : (Signal.notifyAnswered response).IsPlausible late tell base m := trivial
    refine (becomes_react h hsignal).mono (fun _ after h' ↦ ⟨fun hphase ↦ ?_, fun _ ↦ ?_⟩)
      fun _ ↦ id
    · exact (ih h').mono (fun _ _ hrest ↦ ⟨hrest.1, fun hall _ ↦ hrest.2 hall (.inl hphase)⟩)
        fun _ ↦ id
    · exact ⟨h', Bool.noConfusion⟩

private theorem becomes_onNotify (h : base.Becomes late tell m) (event : Channel.Event) :
    Ensures (onNotify tell event) m (fun _ ↦ base.Becomes late tell) (base.Becomes late tell) := by
  cases event with
  | connected => exact becomes_react h trivial
  | received bytes =>
    have hdeliver (m' : Machine) (h' : base.Becomes late tell m') (responses : List Wire.Response) :
        Ensures (do
          if (← deliverAll tell responses) && !responses.isEmpty then
            rearmWait tell) m' (fun _ ↦ base.Becomes late tell) (base.Becomes late tell) := by
      simp only [ensures_bind, ensures_ite, ensures_pure]
      refine (becomes_deliverAll h' responses).mono
        (fun answer after hafter ↦ ⟨fun hall ↦ ?_, fun _ ↦ hafter.1⟩) fun _ ↦ id
      simp only [Bool.and_eq_true, Bool.not_eq_true', List.isEmpty_eq_false_iff] at hall
      exact becomes_rearmWait hafter.1 (hafter.2 hall.1 (.inr hall.2))
    rw [onNotify, ensures_bind, ensures_withNotify]
    refine ⟨fun _ ↦ hdeliver m h [], fun n hnotify ↦ ?_⟩
    have hreceived := h.change (.receiveNotify hnotify bytes)
    generalize n.receive bytes m.host = read at hreceived
    obtain ⟨responses, outcome, received⟩ := read
    cases outcome with
    | failed error => exact becomes_fail hreceived
    | more => exact hdeliver _ hreceived responses
    | closing => exact hdeliver _ hreceived responses
  | closed code =>
    have hreact (m' : Machine) (h' : base.Becomes late tell m') :
        Ensures (do
          if code = Channel.refusedCode then
            react tell .notifyRefused
          else
            react tell .notifyLost) m' (fun _ ↦ base.Becomes late tell)
              (base.Becomes late tell) := by
      rw [ensures_ite]
      exact ⟨fun _ ↦ becomes_react h' trivial, fun _ ↦ becomes_react h' trivial⟩
    rw [onNotify, ensures_bind, ensures_withNotify]
    exact ⟨fun _ ↦ hreact m h, fun n hnotify ↦ hreact _ (h.change (.abortNotify hnotify))⟩

private theorem becomes_onSocket (h : base.Becomes late tell m) {socket : Nat}
    {event : Channel.Event} (hlate : m.session.command.any (·.socket = socket) = true →
      ∀ id, m.session.BringsLate event id → late id) :
    Ensures (onSocket tell socket event) m (fun _ ↦ base.Becomes late tell)
      (base.Becomes late tell) := by
  have hmoved := h.change (.socket socket ((m.host.phaseOf socket).after event))
  simp only [onSocket, ensures_bind, ensures_modify, ensures_get, ensures_ite, ensures_pure]
  exact ⟨fun hown ↦ becomes_onCommand hmoved (hlate hown),
    fun _ ↦ ⟨fun _ ↦ becomes_onNotify hmoved event, fun _ ↦ hmoved⟩⟩

private theorem becomes_onAnswer (h : base.Becomes late tell m) (ip : Option String) :
    Ensures (onAnswer tell ip) m (fun _ ↦ base.Becomes late tell) (base.Becomes late tell) := by
  cases ip with
  | none => exact becomes_react h trivial
  | some ip => exact becomes_react h trivial

private theorem becomes_onTimer (h : base.Becomes late tell m) (timer : Nat) :
    Ensures (onTimer tell timer) m (fun _ ↦ base.Becomes late tell) (base.Becomes late tell) := by
  simp only [onTimer, ensures_bind, ensures_get]
  cases hfire : m.session.retry.fire? timer with
  | none => exact ensures_pure.2 h
  | some retry =>
    obtain ⟨-, rfl⟩ := RetryTimer.fire?_eq_some_iff.1 hfire
    rw [ensures_bind, ensures_remember]
    exact becomes_react (h.change .fire) trivial

/-- Whatever a step is, but for a call to close, it does what changes do. -/
theorem becomes_step (m : Machine) (tell : Event → SessionM Unit) {s : Step}
    (hs : s ≠ .call .close) (hlate : ∀ id, m.BringsLate s id → late id) :
    Ensures (Machine.react tell s) m (fun _ ↦ m.Becomes late tell) (m.Becomes late tell) := by
  have h : m.Becomes late tell m := .refl m
  have hgrant (f : Policy → Policy) : m.Becomes late tell (m.grant f) := h.change (.grant f)
  cases s with
  | call c =>
    simp only [Machine.react, ensures_bind, ensures_pure]
    exact becomes_perform h fun hclose ↦ hs (congrArg _ hclose)
  | observe =>
    simp only [Machine.react, ensures_bind, ensures_get, ensures_ite, ensures_throw,
      ensures_modify, ensures_pure]
    exact ⟨fun _ ↦ h, fun _ ↦ h.change .observe⟩
  | answer ip =>
    simp only [Machine.react, onLookup, ensures_bind, ensures_get, ensures_ite, ensures_remember,
      ensures_pure]
    exact ⟨fun _ ↦ becomes_onAnswer (h.change .lookedUp) ip, fun _ ↦ h⟩
  | lateAnswer ip =>
    simp only [Machine.react, ensures_bind, ensures_pure]
    exact becomes_onAnswer h ip
  | fire timer =>
    simp only [Machine.react, ensures_bind, ensures_get, ensures_ite, ensures_pure]
    exact ⟨fun _ ↦ becomes_onTimer h timer, fun _ ↦ h⟩
  | socket ref event =>
    simp only [Machine.react, ensures_bind, ensures_get]
    cases hfind : m.find? ref with
    | none => exact ensures_pure.2 h
    | some socket =>
      simp only [ensures_bind, ensures_pure]
      exact becomes_onSocket h fun hown id hbrought ↦
        hlate id ⟨ref, event, socket, rfl, hfind, hown, hbrought⟩
  | accept role granted =>
    simp only [Machine.react, ensures_bind, ensures_modify, ensures_pure]
    exact hgrant _
  | sendable role granted =>
    simp only [Machine.react, ensures_bind, ensures_modify, ensures_pure]
    exact hgrant _
  | resolvable granted =>
    simp only [Machine.react, ensures_bind, ensures_modify, ensures_pure]
    exact hgrant _

end SessionM

/-! ### Conditions that hold throughout a run -/

namespace Machine

open SessionM

variable {late : Int → Prop} {P : Machine → Prop} {m : Machine} {o : Observer} {depth : Nat}

/-- Whether telling the observer keeps a condition. -/
def Keeps (P : Machine → Prop) (tell : Event → SessionM Unit) : Prop :=
  ∀ e m, P m → P (after (tell e) m)

/-- Announcing a listing keeps what telling keeps. -/
theorem Keeps.announce {tell : Event → SessionM Unit} (htell : Keeps P tell) (h : P m)
    (listed : List Peer.Entry) : P (after (announce tell listed) m) := by
  apply ensures_const.1
  induction listed generalizing m with
  | nil =>
    simp only [SessionM.announce, ensures_bind, ensures_phase, ensures_ite, ensures_pure]
    exact ⟨fun _ ↦ ensures_const.2 (htell _ m h), fun _ ↦ h⟩
  | cons entry rest ih =>
    simp only [SessionM.announce, ensures_bind, ensures_phase, ensures_ite, ensures_pure]
    exact ⟨fun _ ↦ (ensures_const.2 (htell _ m h)).mono (fun _ _ ↦ ih) fun _ ↦ id, fun _ ↦ h⟩

/-- Whether a note shows the session as it is, if it shows one. -/
def Shows (m : Machine) : Note → Prop
  | .heard _ s => s = m.session
  | .called _ _ => True

/-- A condition that everything that happens to a session keeps, where only certain ids are brought
late. -/
structure IsKept (late : Int → Prop) (P : Machine → Prop) : Prop where
  note : ∀ m n, m.Shows n → P m → P (m.note n)
  close : ∀ m, P m → P m.reset
  change : ∀ tell m m', Keeps P tell → P m → m.Change late tell m' → P m'

private theorem IsKept.perform {tell : Event → SessionM Unit} (hP : IsKept late P)
    (htell : Keeps P tell) (h : P m) (c : Call) : Ensures (perform tell c) m (fun _ ↦ P) P := by
  by_cases hc : c = .close
  · subst hc
    simp only [SessionM.perform, ensures_bind, ensures_modify, ensures_pure]
    exact hP.close m h
  · exact (becomes_perform (.refl m) hc).mono
      (fun _ _ h' ↦ h'.induction h fun _ _ ↦ hP.change tell _ _ htell)
      fun _ h' ↦ h'.induction h fun _ _ ↦ hP.change tell _ _ htell

private theorem IsKept.carryOut {tell : Event → SessionM Unit} (hP : IsKept late P)
    (htell : Keeps P tell) (h : P m) (deeds : List Deed) :
    Ensures (Observer.carryOut tell deeds) m (fun _ ↦ P) P := by
  induction deeds generalizing m with
  | nil => exact ensures_pure.2 h
  | cons deed rest ih =>
    have hgo (c : Call) (answer : Option Bool) (after : Machine) (hafter : P after) :
        Ensures (do modify (·.note (.called c answer)); Observer.carryOut tell rest) after
          (fun _ ↦ P) P := by
      rw [ensures_bind, ensures_modify]
      exact ih (hP.note after (.called c answer) trivial hafter)
    cases deed with
    | refuse => exact ensures_throw.2 h
    | call c =>
      rw [Observer.carryOut, ensures_bind]
      exact (hP.perform htell h c).mono (fun answer ↦ hgo c answer) fun _ ↦ id
    | attempt c =>
      rw [Observer.carryOut, ensures_bind, ensures_tryCatch]
      exact (hP.perform htell h c).mono (fun answer ↦ hgo c answer)
        fun after hafter ↦ ensures_pure.2 (hgo c none after hafter)

/-- Whatever the observer does when it is told, it keeps the condition. -/
theorem IsKept.tell (hP : IsKept late P) (o : Observer) (depth : Nat) : Keeps P (o.tell depth) := by
  induction depth with
  | zero =>
    intro e m h
    apply ensures_const.1
    simp only [Observer.tell, ensures_bind, ensures_get, ensures_ite, ensures_set, ensures_pure]
    exact ⟨fun _ ↦ hP.note m (.heard e m.session) rfl h, fun _ ↦ h⟩
  | succ depth ih =>
    intro e m h
    apply ensures_const.1
    simp only [Observer.tell, ensures_bind, ensures_get, ensures_ite, ensures_set, ensures_pure]
    exact ⟨fun _ ↦ hP.carryOut ih (hP.note m (.heard e m.session) rfl h) _, fun _ ↦ h⟩

private theorem IsKept.step_of_late (hP : IsKept late P) (o : Observer) (depth : Nat) (h : P m)
    {s : Step} (hlate : ∀ id, m.BringsLate s id → late id) : P (m.step o depth s).2 := by
  rw [Machine.step, runWith_snd]
  apply ensures_const.1
  by_cases hs : s = .call .close
  · subst hs
    simp only [Machine.react, ensures_bind, ensures_pure]
    exact hP.perform (hP.tell o depth) h .close
  · exact (becomes_step m (o.tell depth) hs hlate).mono
      (fun _ _ h' ↦ h'.induction h fun _ _ ↦ hP.change _ _ _ (hP.tell o depth))
      fun _ h' ↦ h'.induction h fun _ _ ↦ hP.change _ _ _ (hP.tell o depth)

/-- A condition that is kept holds at the end of a run if it holds at its beginning. The induction
is on the steps, from the first. -/
theorem IsKept.run_of_late (hP : IsKept late P) (o : Observer) (depth : Nat) (h : P m)
    {steps : List Step} (hlate : ∀ done s rest id, steps = done ++ s :: rest →
      (m.run o depth done).BringsLate s id → late id) : P (m.run o depth steps) := by
  induction steps generalizing m with
  | nil => exact h
  | cons s rest ih =>
    refine ih (hP.step_of_late o depth h fun id ↦ hlate [] s rest id rfl) ?_
    exact fun done s' rest' id hsteps ↦ hlate (s :: done) s' rest' id (congrArg (s :: ·) hsteps)

/-! A condition may be kept whatever is brought late. -/

/-- What every change keeps is kept by every step. -/
theorem IsKept.step (hP : IsKept (fun _ ↦ True) P) (o : Observer) (depth : Nat) (h : P m)
    (s : Step) : P (m.step o depth s).2 :=
  hP.step_of_late o depth h fun _ _ ↦ trivial

/-- What every change keeps is kept by every run. -/
theorem IsKept.run (hP : IsKept (fun _ ↦ True) P) (o : Observer) (depth : Nat) (h : P m)
    (steps : List Step) : P (m.run o depth steps) :=
  hP.run_of_late o depth h fun _ _ _ _ _ _ ↦ trivial

end Machine

end Rendezvous
