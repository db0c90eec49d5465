import Rendezvous.Proofs.Session.Change
import Rendezvous.Proofs.Session.Polling.Reports
import Rendezvous.Proofs.Session.Veil.Calls

/-!
# What signals do regardless of payloads

Whatever happens to a session, it comes to the same on two machines that differ at most in payloads.
A notification may then bring either of two payloads from another peer: the observer is told of a
message as long, and nothing else comes of it.
-/

namespace Rendezvous

open Wire

/-- Whether a session goes by an id while it is connected. -/
def Machine.GoesBy (id : Int) (m : Machine) : Prop :=
  m.session.phase = .connected → m.session.selfId = id

namespace SessionM

open Machine

variable {held held' : Bytes} {m m' : Machine} {tell : Event → SessionM Unit}
  (htell : TellsBlindly held held' tell)
include htell

/-! ### The command link -/

private theorem isBlind_writeRequest : IsBlind held held' (writeRequest tell) := by
  have hflush : IsBlind held held' (withCommand .idle CommandLink.flush) :=
    isBlind_withCommand fun c _ _ ↦ c.flush_alike
  refine hflush.bind fun flushed ↦ ?_
  cases flushed with
  | failed => exact isBlind_fail htell
  | idle => exact isBlind_pure _
  | written size => exact isBlind_pure _

private theorem isBlind_announce (listed : List Peer.Entry) :
    IsBlind held held' (announce tell listed) := by
  induction listed with
  | nil => exact isBlind_phase.bind fun _ ↦ (htell.isBlind _).ite (isBlind_pure _)
  | cons entry rest ih =>
    exact isBlind_phase.bind fun _ ↦ ((htell.isBlind _).bind fun _ ↦ ih).ite (isBlind_pure _)

private theorem isBlind_acceptSignIn (response : Response) :
    IsBlind held held' (acceptSignIn tell response) := by
  refine (isBlind_fail htell).ite ?_
  cases response.peerId? with
  | none => exact isBlind_fail htell
  | some id =>
    refine (isBlind_fail htell).ite (isBlind_get fun m m' hm ↦ ?_)
    refine Agree.bind (agree_remember ?_) fun _ n n' _ ↦ ?_
    · cases hm with
      | intro hlinks hhosts => exact .intro hlinks hhosts
    · rw [hm.session]
      refine IsBlind.bind (isBlind_withNotify ?_) (fun dialled ↦ ?_) n n'
      · intro l l' h h' hlink hhosts
        obtain ⟨hsame, htwin⟩ := hhosts.connect l.socket m.session.address
        have hsocket := hlink.socket
        refine ⟨?_, hlink, ?_⟩
        · rw [hsocket]
          exact hsame
        · rw [hsocket]
          exact htwin
      · exact (isBlind_announce htell _).ite (isBlind_fail htell)

private theorem isBlind_acceptRelay (response : Response) :
    IsBlind held held' (acceptRelay tell response) :=
  (htell.isBlind _).ite (isBlind_fail htell)

private theorem isBlind_acceptDeferred (what : Option Exchange) (response : Response) :
    IsBlind held held' (acceptDeferred tell what response) := by
  have hrest : IsBlind held held' (do
      if (← phase) = .signingOutPending then
        discard (signOut tell)) :=
    isBlind_phase.bind fun _ ↦ (isBlind_signOut htell).discard.ite (isBlind_pure _)
  refine (isBlind_fail htell).ite ?_
  rcases what with _ | _ | _ | _
  · exact hrest
  · cases response.peerId? with
    | none => exact hrest
    | some id => exact (isBlind_remember fun _ _ ↦ rfl).bind fun _ ↦ hrest
  · exact (htell.isBlind _).bind fun _ ↦ hrest
  · exact hrest

/-! ### The notify link -/

private theorem isBlind_applyEntry (body : Bytes) : IsBlind held held' (applyEntry tell body) := by
  rw [applyEntry]
  cases Peer.Entry.read? (Text.Utf8.decodeLossy body) with
  | none => exact isBlind_pure _
  | some entry =>
    refine isBlind_get fun m m' hm ↦ ?_
    rw [hm.session]
    refine Agree.ite Iff.rfl (fun _ ↦ ?_) fun _ ↦ ?_
    · refine IsBlind.bind (isBlind_remember fun _ _ ↦ rfl) (fun _ ↦ ?_) m m'
      exact (htell.isBlind _).ite (isBlind_pure _)
    · exact IsBlind.bind (isBlind_remember fun _ _ ↦ rfl) (fun _ ↦ htell.isBlind _) m m'

/-- Either of two payloads is told as one, unless a peer hangs up by one of them. -/
theorem agree_acceptPayload (peer : Int) {payload payload' : Bytes}
    (hsize : payload'.length = payload.length)
    (hpayload : payload = payload' ∨ AreOpaque payload payload') :
    Agree held held' (acceptPayload tell peer payload) (acceptPayload tell peer payload') m m' := by
  rcases hpayload with rfl | ⟨hno, hno'⟩
  · refine IsBlind.ite ?_ (htell.isBlind _) m m'
    exact (isBlind_remember fun _ _ ↦ rfl).bind fun _ ↦ htell.isBlind _
  · rw [acceptPayload, acceptPayload, if_neg hno, if_neg hno']
    exact htell _ _ m m' (.message peer hsize)

/-- Notifications that differ in payloads from other peers come to the same. -/
theorem agree_acceptNotification {r r' : Response} (hlike : r.IsLike m.session.selfId r') :
    Agree held held' (acceptNotification tell r) (acceptNotification tell r') m m' := by
  rw [acceptNotification, acceptNotification, hlike.isOk, hlike.peerId?]
  refine Agree.ite Iff.rfl (fun _ ↦ isBlind_fail htell m m') fun _ ↦ ?_
  have hpayload := hlike.payload
  cases hpeer : r.peerId? with
  | none => exact isBlind_fail htell m m'
  | some id =>
    rw [hpeer] at hpayload
    refine agree_get fun hm ↦ ?_
    have hown : m'.session.selfId = m.session.selfId := by rw [hm.session]
    refine Agree.ite (by rw [hown]) (fun hsame ↦ ?_) (fun _ ↦ ?_) hm
    · have hbody : r.body = r'.body := hpayload.resolve_right fun hother ↦ hother.1 (by rw [hsame])
      rw [hbody]
      exact isBlind_applyEntry htell r'.body m m'
    · exact agree_acceptPayload htell id hlike.size (hpayload.imp_right And.right)

private theorem isBlind_startWait : IsBlind held held' (startWait tell) := by
  refine isBlind_get fun m m' hm ↦ ?_
  rw [hm.session]
  refine IsBlind.bind (isBlind_withNotify ?_) (fun issued ↦ ?_) m m'
  · exact fun n n' h h' hlink hhosts ↦ NotifyLink.issueWait_twins hlink hhosts _
  · exact (isBlind_ofRequest _).bind fun _ ↦ (isBlind_fail htell).ite (isBlind_pure _)

private theorem isBlind_rearmWait : IsBlind held held' (rearmWait tell) := by
  refine isBlind_get fun m m' hm ↦ ?_
  rw [hm.session]
  refine IsBlind.bind (isBlind_withNotify ?_) (fun issued ↦ ?_) m m'
  · exact fun n n' h h' hlink hhosts ↦ NotifyLink.rearm_twins hlink hhosts _ _
  · exact (isBlind_ofRequest _).bind fun _ ↦ (isBlind_fail htell).ite (isBlind_pure _)

/-! ### Signals and events -/

private theorem isBlind_react (signal : Signal) : IsBlind held held' (react tell signal) := by
  refine isBlind_phase.bind fun phase ↦ ?_
  split
  · exact (isBlind_remember fun _ _ ↦ rfl).bind fun _ ↦ (isBlind_dial htell).discard
  · exact isBlind_failToConnect htell
  · exact (isBlind_dial htell).discard
  · exact isBlind_writeRequest htell
  · exact isBlind_writeRequest htell
  · exact isBlind_writeRequest htell
  · exact isBlind_writeRequest htell
  · exact isBlind_acceptSignIn htell _
  · exact isBlind_acceptRelay htell _
  · exact isBlind_acceptDeferred htell _ _
  · exact isBlind_fail htell
  · exact isBlind_armRetry
  · exact isBlind_fail htell
  · exact isBlind_fail htell
  · exact isBlind_fail htell
  · exact isBlind_fail htell
  · exact isBlind_fail htell
  · exact (isBlind_signOut htell).discard
  · exact isBlind_fail htell
  · exact isBlind_startWait htell
  · exact fun m m' ↦ agree_acceptNotification htell (.refl _)
  · exact isBlind_rearmWait htell
  · exact isBlind_fail htell
  · exact isBlind_pure _

/-- What happens to the command link is blind to payloads of notices. -/
theorem isBlind_onCommand (event : Channel.Event) :
    IsBlind held held' (onCommand tell event) := by
  cases event with
  | connected => exact isBlind_react htell _
  | received bytes =>
    refine IsBlind.bind (isBlind_withCommand fun c _ _ ↦ c.receive_alike bytes) fun read ↦ ?_
    rcases read with e | _ | ⟨what, response⟩
    · exact isBlind_fail htell
    · exact isBlind_pure _
    · exact isBlind_react htell _
  | closed code =>
    refine IsBlind.bind (isBlind_withCommand fun c _ _ hhosts ↦ ⟨rfl, rfl, hhosts⟩) fun what ↦ ?_
    exact (isBlind_react htell _).ite ((isBlind_react htell _).ite (isBlind_pure _))

/-- A connection of the long poll that is made or lost. -/
theorem isBlind_onNotify {event : Channel.Event} (hevent : ∀ bytes, event ≠ .received bytes) :
    IsBlind held held' (onNotify tell event) := by
  cases event with
  | connected => exact isBlind_react htell _
  | received bytes => exact absurd rfl (hevent bytes)
  | closed code =>
    refine IsBlind.bind (isBlind_withNotify fun n n' _ _ hlink hhosts ↦
      ⟨rfl, hlink.abort, hhosts⟩) fun _ ↦ ?_
    exact (isBlind_react htell _).ite (isBlind_react htell _)

/-- An answer to a lookup is taken blind to payloads. -/
theorem isBlind_onAnswer (ip : Option String) : IsBlind held held' (onAnswer tell ip) := by
  cases ip with
  | none => exact isBlind_react htell _
  | some ip => exact isBlind_react htell _

/-- The end of a lookup is taken blind to payloads. -/
theorem isBlind_onLookup (ip : Option String) : IsBlind held held' (onLookup tell ip) :=
  (isBlind_remember fun _ _ ↦ rfl).bind fun _ ↦ isBlind_onAnswer htell ip

/-- A retry is blind to payloads. -/
theorem isBlind_onTimer (timer : Nat) : IsBlind held held' (onTimer tell timer) := by
  refine isBlind_get fun m m' hm ↦ ?_
  have hretry : m'.session.retry = m.session.retry := by rw [hm.session]
  simp only [hretry]
  cases m.session.retry.fire? timer with
  | none => exact isBlind_pure _ m m'
  | some retry =>
    have hfired : IsBlind held held' (remember fun s ↦ { s with retry }) :=
      isBlind_remember (f := fun s ↦ { s with retry }) fun _ _ ↦ rfl
    exact hfired.bind (fun _ ↦ isBlind_react htell _) m m'

/-! ### Bytes over the long poll -/

omit htell in
private theorem goesBy_fail {id : Int} (hkeeps : Keeps (GoesBy id) tell) :
    Ensures (fail tell) m (fun _ ↦ GoesBy id) (GoesBy id) := by
  have hreset : m.reset.GoesBy id := fun hphase ↦ by cases hphase
  rw [fail, ensures_bind, ensures_modify]
  exact ensures_const.2 (hkeeps _ _ hreset)

omit htell in
/-- No notification gives a session another id. -/
theorem goesBy_notified {id : Int} (hkeeps : Keeps (GoesBy id) tell) (h : m.GoesBy id)
    (r : Response) :
    Ensures (react tell (.notifyAnswered r)) m (fun _ ↦ GoesBy id) (GoesBy id) := by
  have htold (e : Event) {directory : Peer.Directory} :
      Ensures (tell e) { m with session := { m.session with directory } }
        (fun _ ↦ GoesBy id) (GoesBy id) := ensures_const.2 (hkeeps e _ h)
  rw [react, ensures_bind, ensures_phase]
  cases hphase : m.session.phase with
  | connected =>
    simp only [acceptNotification, ensures_ite]
    refine ⟨fun _ ↦ goesBy_fail hkeeps, fun _ ↦ ?_⟩
    cases r.peerId? with
    | none => exact goesBy_fail hkeeps
    | some peer =>
      simp only [ensures_bind, ensures_get, ensures_ite]
      refine ⟨fun _ ↦ ?_, fun _ ↦ ?_⟩
      · rw [applyEntry]
        cases Peer.Entry.read? (Text.Utf8.decodeLossy r.body) with
        | none => exact ensures_pure.2 h
        | some entry =>
          simp only [ensures_bind, ensures_get, ensures_ite, ensures_remember, ensures_pure]
          exact ⟨fun _ ↦ ⟨fun _ ↦ htold _, fun _ ↦ h⟩, fun _ ↦ htold _⟩
      · simp only [acceptPayload, ensures_ite, ensures_bind, ensures_remember]
        exact ⟨fun _ ↦ htold _, fun _ ↦ ensures_const.2 (hkeeps _ _ h)⟩
  | _ => exact ensures_pure.2 h

/-- Notifications that come together are gone through alike. What is left of them counts by the id
that the session goes by, which none of them changes. -/
theorem agree_deliverAll {id : Int} (hkeeps : Keeps (GoesBy id) tell) (h : m.GoesBy id)
    {found found' : List Response} (hlike : List.Forall₂ (Response.IsLike id) found found') :
    Agree held held' (deliverAll tell found) (deliverAll tell found') m m' := by
  induction hlike generalizing m m' with
  | nil => exact isBlind_pure true m m'
  | @cons r r' rest rest' hfirst _ ih =>
    have hreact : Agree held held' (react tell (.notifyAnswered r))
        (react tell (.notifyAnswered r')) m m' := by
      refine Agree.bind (isBlind_phase m m') fun phase n n' hread ↦ ?_
      obtain ⟨rfl, rfl⟩ : m.session.phase = phase ∧ m = n := by cases hread; exact ⟨rfl, rfl⟩
      cases hphase : m.session.phase with
      | connected =>
        rw [← h hphase] at hfirst
        exact agree_acceptNotification htell hfirst
      | _ => exact isBlind_pure _ m n'
    rw [deliverAll, deliverAll]
    refine hreact.bind fun _ n n' hrun ↦ ?_
    have hstill : n.GoesBy id := (goesBy_notified hkeeps h r).of_eq hrun
    refine Agree.bind (isBlind_phase n n') fun phase final final' hread ↦ ?_
    obtain rfl : n = final := congrArg Prod.snd hread
    exact Agree.ite Iff.rfl (fun _ ↦ ih hstill) fun _ ↦ isBlind_pure false n final'

private theorem agree_handOver {id : Int} (hkeeps : Keeps (GoesBy id) tell) (h : m.GoesBy id)
    {found found' : List Response} (hlike : List.Forall₂ (Response.IsLike id) found found') :
    Agree held held' (handOver tell found) (handOver tell found') m m' := by
  refine (agree_deliverAll htell hkeeps h hlike).bind fun all n n' _ ↦ ?_
  rw [isEmpty_eq_of_forall₂ hlike]
  exact (isBlind_rearmWait htell).ite (isBlind_pure _) n n'

omit htell in
/-- Bytes by which two streams that differ in payloads go on come to the same. From then on the long
polls hold what is left of either stream. -/
theorem onNotify_received (htell : ∀ held held', TellsBlindly held held' tell)
    (hm : Twin held held' m m') (hkeeps : Keeps (GoesBy m.session.selfId) tell) {n n' : NotifyLink}
    (hlink : m.session.notify = some n) (hlink' : m'.session.notify = some n')
    {bytes bytes' : Bytes}
    (hlike : UpToPayloads m.session.selfId (n.framer.buffer ++ bytes)
      (n'.framer.buffer ++ bytes')) :
    Matches (NotifyLink.drain (n.framer.feed bytes)).2.2.buffer
      (NotifyLink.drain (n'.framer.feed bytes')).2.2.buffer (onNotify tell (.received bytes) m)
      (onNotify tell (.received bytes') m') := by
  have hlinks := hm.notify
  rw [hlink, hlink', Option.rel_some_some] at hlinks
  have hread := hlinks.reads hlike
  obtain ⟨hreceived, hhosts⟩ := NotifyLink.receive_twins hlinks hm.host hlike
  have hsame (after : NotifyLink × Host Note) : (m.putNotify after).GoesBy m.session.selfId :=
    fun _ ↦ rfl
  have hafter := hm.putNotify hreceived hhosts
  have houtcome := hread.outcome
  rw [onNotify, onNotify, bind_apply, bind_apply, withNotify_apply, withNotify_apply, hlink, hlink']
  cases hended : (NotifyLink.drain (n.framer.feed bytes)).2.1 with
  | failed e =>
    rw [hended] at houtcome
    simp only [NotifyLink.receive, hended, houtcome] at hafter ⊢
    exact isBlind_fail (htell _ _) _ _ hafter
  | _ =>
    rw [hended] at houtcome
    simp only [NotifyLink.receive, hended, houtcome] at hafter ⊢
    exact agree_handOver (htell _ _) hkeeps (hsame _) hread.responses hafter

end SessionM

end Rendezvous
