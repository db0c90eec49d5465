import Rendezvous.Proofs.Session.Consistency.Calls

/-!
# Events keep a session together

What happens to a session from outside ends with everything fitting the phase again, as long as
sockets have the events only that a working network reports. An exchange that is over leaves the
command link idle in a phase that still tells which exchange it was.
-/

namespace Rendezvous

namespace Machine

/-- The exchange `what` has just come to its end, in a phase that it fits. -/
structure Over (config : Config) (what : Exchange) (m : Machine) (c : CommandLink)
    (n : NotifyLink) : Prop where
  config : m.config = config
  links : m.Linked c n
  idle : c.exchange = none
  writable : m.session.IsWritable
  fits : Session.Fits .none m.session.phase m.session.retry.isArmed m.session.selfId (some what)
    (m.host.phaseOf n.socket)

variable {config : Config} {plain : Prop} {what : Exchange} {m : Machine} {c : CommandLink}
  {n : NotifyLink}

private theorem Over.settled (h : m.Over config what c n) (hphase : m.session.phase = .connected) :
    m.Stands config plain .none := by
  have hfits := h.fits
  rw [hphase] at hfits
  obtain ⟨hdisarmed, hid, -, hq⟩ := hfits
  refine .linked c n h.config h.links h.writable ?_
  rw [hphase]
  exact ⟨hdisarmed, hid, .inl h.idle, hq⟩

private theorem Over.leaving (h : m.Over config what c n)
    (hphase : m.session.phase = .signingOutPending) : m.Stands config plain .signOut := by
  have hfits := h.fits
  rw [hphase] at hfits
  obtain ⟨hdisarmed, hq, -⟩ := hfits
  refine .linked c n h.config h.links h.writable ?_
  rw [hphase]
  exact ⟨hdisarmed, hq, .inr (.inr ⟨h.idle, rfl⟩)⟩

/-- While its socket is not closed, the command link has an exchange in flight. -/
theorem Stands.busy (h : m.Stands config plain .none) (hc : m.session.command = some c)
    (hopen : m.host.phaseOf c.socket ≠ .closed) : c.exchange ≠ none := by
  cases h with
  | disconnected _ _ _ closed => exact absurd (closed _) hopen
  | resolving _ _ _ _ _ _ _ closed => exact absurd (closed _) hopen
  | linked c₀ n _ links =>
    cases links.command.symm.trans hc
    exact fun hidle ↦ hopen (links.idle.1 hidle)

/-- While its socket is not closed, the notify link is that of a connected session. -/
theorem Stands.listening (h : m.Stands config plain .none) (hn : m.session.notify = some n)
    (hopen : m.host.phaseOf n.socket ≠ .closed) : m.session.phase = .connected := by
  cases h with
  | disconnected _ _ _ closed => exact absurd (closed _) hopen
  | resolving _ _ _ _ _ _ _ closed => exact absurd (closed _) hopen
  | linked c n₀ _ links _ fits =>
    cases links.notify.symm.trans hn
    cases hphase : m.session.phase with
    | connected => rfl
    | disconnected => exact (hphase ▸ fits).elim
    | resolving => exact (hphase ▸ fits).elim
    | signingIn => exact absurd (hphase ▸ fits).2.1 hopen
    | signingOut => exact absurd (hphase ▸ fits).2.2.2 hopen
    | signingOutPending => exact absurd (hphase ▸ fits).2.1 hopen

/-- A session that waits for an address has no id and no retry, and its name can be written. -/
theorem Stands.looking (h : m.Stands config plain .none) (hphase : m.session.phase = .resolving) :
    m.session.selfId = Peer.unsetId ∧ m.session.retry.isArmed = false ∧
      (plain → m.session.clientName.string?.isSome) := by
  cases h with
  | disconnected _ ended => cases hphase.symm.trans ended.phase
  | resolving _ _ _ unset disarmed _ named => exact ⟨unset, disarmed, named⟩
  | linked c n _ _ _ fits => exact (hphase ▸ fits).elim

/-- A retry is due only while the session signs in, under a name that can be written. -/
theorem Stands.retrying (h : m.Stands config plain .none)
    (harmed : m.session.retry.isArmed = true) :
    m.session.phase = .signingIn ∧ m.session.selfId = Peer.unsetId ∧
      m.session.clientName.string?.isSome := by
  cases h with
  | disconnected _ ended => cases harmed.symm.trans ended.disarmed
  | resolving _ _ _ _ disarmed => cases harmed.symm.trans disarmed
  | linked c n _ _ writable fits =>
    rw [harmed] at fits
    cases hphase : m.session.phase with
    | signingIn => exact ⟨rfl, (hphase ▸ fits).1, writable.name⟩
    | connected => cases (hphase ▸ fits).1
    | signingOut => cases (hphase ▸ fits).1
    | signingOutPending => cases (hphase ▸ fits).1
    | disconnected => exact (hphase ▸ fits).elim
    | resolving => exact (hphase ▸ fits).elim

/-- A connected session may lose its notify socket, while the next wait is still to be put in
place. -/
theorem Stands.awaiting (h : m.Stands config plain .none) (hn : m.session.notify = some n)
    (hphase : m.session.phase = .connected) {n' : NotifyLink} {host : Host Note}
    (hsocket : n'.socket = n.socket)
    (hothers : ∀ k, k ≠ n.socket → host.phaseOf k = m.host.phaseOf k) :
    (m.putNotify (n', host)).Stands config plain .wait := by
  cases h with
  | disconnected _ ended => cases hphase.symm.trans ended.phase
  | resolving _ phase => cases hphase.symm.trans phase
  | linked c n₀ hconfig links writable fits =>
    cases links.notify.symm.trans hn
    rw [hphase] at fits
    obtain ⟨hdisarmed, hid, hx, -⟩ := fits
    refine .linked c n' hconfig (links.putNotify hsocket hothers)
      ⟨writable.id, writable.name⟩ ?_
    show Session.Fits .wait m.session.phase _ _ _ _
    rw [hphase]
    exact ⟨hdisarmed, hid, hx, fun _ ↦ rfl⟩

/-- The exchange in flight is over once the command socket is closed and the link has forgotten
it. -/
theorem Stands.over (h : m.Stands config plain .none) (hc : m.session.command = some c)
    (hx : c.exchange = some what) {c' : CommandLink} {host : Host Note}
    (hsocket : c'.socket = c.socket) (hidle : c'.exchange = none)
    (hphase : ∀ k, host.phaseOf k = if c.socket = k then .closed else m.host.phaseOf k) :
    ∃ n, (m.putCommand (c', host)).Over config what c' n := by
  cases h with
  | disconnected _ _ unlinked closed => cases (unlinked.exchange_eq_none hc closed).symm.trans hx
  | resolving _ _ unlinked _ _ _ _ closed =>
    cases (unlinked.exchange_eq_none hc closed).symm.trans hx
  | linked c₀ n hconfig links writable fits =>
    cases links.command.symm.trans hc
    have hnotify : host.phaseOf n.socket = m.host.phaseOf n.socket :=
      (hphase _).trans (if_neg links.apart)
    have hclosed : host.phaseOf c.socket = .closed := (hphase _).trans (if_pos rfl)
    have hothers (k : Nat) (hk : k ≠ c.socket) : host.phaseOf k = m.host.phaseOf k :=
      (hphase k).trans (if_neg hk.symm)
    rw [hx, ← hnotify] at fits
    exact ⟨n, hconfig, links.putCommand hsocket (iff_of_true hidle hclosed) hothers, hidle,
      ⟨writable.id, writable.name⟩, fits⟩

end Machine

namespace SessionM

open Machine

variable {config : Config} {plain : Prop} {slack : Slack} {tell : Event → SessionM Unit}
  {m : Machine} {c : CommandLink} {n : NotifyLink} {what : Exchange}

/-! ### The command link -/

private theorem stands_writeRequest (htell : Steady config plain tell)
    (h : m.Stands config plain slack) :
    Ensures (writeRequest tell) m (fun _ ↦ Stands config plain slack) fun _ ↦ False := by
  rw [writeRequest, ensures_bind, ensures_withCommand]
  constructor
  · intro _
    exact ensures_pure.2 h
  · intro link hlink
    obtain ⟨hsocket, hx, hphase⟩ := link.flush_frame m.host
    have hafter := h.putCommand hlink hsocket hx hphase
    cases (link.flush m.host).1 with
    | failed => exact stands_fail htell hafter.tidy
    | idle => exact ensures_pure.2 hafter
    | written size => exact ensures_pure.2 hafter

/-- The induction is on the peers still to be reported. -/
theorem stands_announce (htell : Steady config plain tell) (h : m.Stands config plain slack)
    (listed : List Peer.Entry) :
    Ensures (announce tell listed) m (fun _ ↦ Stands config plain slack) fun _ ↦ False := by
  induction listed generalizing m with
  | nil =>
    simp only [announce, ensures_bind, ensures_phase, ensures_ite, ensures_pure]
    exact ⟨fun _ ↦ htell slack _ m h, fun _ ↦ h⟩
  | cons entry rest ih =>
    simp only [announce, ensures_bind, ensures_phase, ensures_ite, ensures_pure]
    exact ⟨fun _ ↦ (htell slack _ m h).mono (fun _ _ hafter ↦ ih hafter) fun _ ↦ id, fun _ ↦ h⟩

private theorem stands_acceptSignIn (htell : Steady config plain tell) (h : m.Over config what c n)
    (hphase : m.session.phase = .signingIn) (response : Wire.Response) :
    Ensures (acceptSignIn tell response) m (fun _ ↦ Stands config plain .none) fun _ ↦ False := by
  have htidy := h.links.tidy h.config
  have hfits := h.fits
  rw [hphase] at hfits
  obtain ⟨-, hclosed, ⟨-, hnone⟩ | ⟨hdisarmed, -⟩⟩ := hfits
  · cases hnone
  rw [acceptSignIn, ensures_ite]
  refine ⟨fun _ ↦ stands_fail htell htidy, fun _ ↦ ?_⟩
  cases hid : response.peerId? with
  | none => exact stands_fail htell htidy
  | some id =>
    simp only [ensures_ite, ensures_bind, ensures_get, ensures_remember, ensures_withNotify]
    refine ⟨fun _ ↦ stands_fail htell htidy, fun hnegative ↦ ⟨fun hnone ↦ ?_, fun link hlink ↦ ?_⟩⟩
    · cases h.links.notify.symm.trans hnone
    · cases h.links.notify.symm.trans hlink
      have hunset : id ≠ Peer.unsetId := fun heq ↦ hnegative (by rw [heq]; decide)
      rcases m.host.connect_cases n.socket m.session.address with ⟨hdialled, -, hmade⟩ | hrefused
      · have hopened := Host.phaseOf_connecting (h := m.host) hmade m.session.address
        have hconnect : m.host.connect n.socket (m.session.assign id).address = _ := hdialled
        simp only [hconnect]
        constructor
        · intro _
          apply stands_announce htell
          refine .linked c n h.config ?_
            ⟨Wire.Response.isWritable_of_peerId? hid, h.writable.name⟩ ⟨?_, ?_, ?_, ?_⟩
          · refine Linked.putNotify (h.links.congr rfl rfl fun _ ↦ rfl) rfl ?_
            intro k hk
            exact (hopened k).trans (if_neg hk.symm)
          · exact hdisarmed
          · exact hunset
          · exact .inl h.idle
          · intro hq
            have hopen : _ = Channel.Phase.connecting := (hopened n.socket).trans (if_pos rfl)
            cases hopen.symm.trans hq
        · intro hnot
          exact absurd trivial hnot
      · have hconnect : m.host.connect n.socket (m.session.assign id).address = _ := hrefused
        simp only [hconnect]
        constructor
        · intro hdialled
          cases hdialled
        · intro _
          refine stands_fail htell (Linked.tidy (c := c) (n := n) ?_ h.config)
          exact Linked.putNotify (h.links.congr rfl rfl fun _ ↦ rfl) rfl fun _ _ ↦ rfl

private theorem stands_acceptRelay (htell : Steady config plain tell)
    (h : m.Stands config plain slack) (response : Wire.Response) :
    Ensures (acceptRelay tell response) m (fun _ ↦ Stands config plain slack) fun _ ↦ False := by
  rw [acceptRelay, ensures_ite]
  exact ⟨fun _ ↦ htell slack _ m h, fun _ ↦ stands_fail htell h.tidy⟩

/-- The request to sign out follows the exchange that it waited for. -/
theorem stands_acceptDeferred (htell : Steady config plain tell) (h : m.Over config what c n)
    (hphase : m.session.phase = .signingOutPending) (response : Wire.Response) :
    Ensures (acceptDeferred tell (some what) response) m (fun _ ↦ Stands config plain .none)
      fun _ ↦ False := by
  have hrest (m' : Machine) (h' : m'.Stands config plain .signOut) :
      Ensures (do
        if (← phase) = .signingOutPending then
          discard (signOut tell)) m' (fun _ ↦ Stands config plain .none) fun _ ↦ False := by
    simp only [ensures_bind, ensures_phase, ensures_ite, ensures_discard, ensures_pure]
    constructor
    · intro _
      exact stands_signOut htell h'
    · intro hleft
      exact h'.settle (by simp) fun _ ↦ hleft
  have hleaving : m.Stands config plain .signOut := h.leaving hphase
  rw [acceptDeferred, ensures_ite]
  refine ⟨fun _ ↦ stands_fail htell hleaving.tidy, fun _ ↦ ?_⟩
  cases what with
  | signIn =>
    cases hid : response.peerId? with
    | none => exact hrest m hleaving
    | some assigned =>
      rw [ensures_bind, ensures_remember]
      refine hrest _ (.linked c n h.config (h.links.congr rfl rfl fun _ ↦ rfl)
        ⟨Wire.Response.isWritable_of_peerId? hid, h.writable.name⟩ ?_)
      have hfits := h.fits
      rw [hphase] at hfits
      show Session.Fits .signOut m.session.phase m.session.retry.isArmed assigned c.exchange
        (m.host.phaseOf n.socket)
      rw [hphase]
      exact ⟨hfits.1, hfits.2.1, .inr (.inr ⟨h.idle, rfl⟩)⟩
  | relay =>
    rw [ensures_bind]
    exact (htell .signOut _ m hleaving).mono (fun _ ↦ hrest) fun _ ↦ id
  | signOut => exact hrest m hleaving

/-- A refused connection is tried again when the retry is due. -/
theorem stands_armRetry (h : m.Over config what c n) (hphase : m.session.phase = .signingIn) :
    Ensures armRetry m (fun _ ↦ Stands config plain .none) fun _ ↦ False := by
  have hfits := h.fits
  rw [hphase] at hfits
  obtain ⟨hunset, hq, hboth | ⟨hdisarmed, -⟩⟩ := hfits
  · cases hboth.2
  have harm : m.session.retry.arm? m.host.timers =
      some { m.session.retry with live := some m.host.timers } := by
    rw [RetryTimer.arm?, hdisarmed]
    rfl
  rw [ensures_armRetry, harm]
  constructor
  · intro hnone
    cases hnone
  · intro retry hretry
    cases hretry
    refine .linked c n h.config (h.links.congr rfl rfl fun _ ↦ rfl)
      ⟨h.writable.id, h.writable.name⟩ ?_
    show Session.Fits .none m.session.phase true m.session.selfId c.exchange
      (m.host.phaseOf n.socket)
    rw [hphase, h.idle]
    exact ⟨hunset, hq, .inl ⟨rfl, rfl⟩⟩

/-! ### The notify link -/

private theorem stands_applyEntry (htell : Steady config plain tell)
    (h : m.Stands config plain slack) (hphase : m.session.phase = .connected) (body : Bytes) :
    Ensures (applyEntry tell body) m (fun _ ↦ Stands config plain slack) fun _ ↦ False := by
  rw [applyEntry]
  cases Peer.Entry.read? (Text.Utf8.decodeLossy body) with
  | none => exact ensures_pure.2 h
  | some entry =>
    simp only [ensures_bind, ensures_get, ensures_ite, ensures_remember, ensures_pure]
    exact ⟨fun _ ↦ ⟨fun _ ↦ htell slack _ _ (h.remember hphase _), fun _ ↦ h.remember hphase _⟩,
      fun _ ↦ htell slack _ _ (h.remember hphase _)⟩

private theorem stands_acceptPayload (htell : Steady config plain tell)
    (h : m.Stands config plain slack) (hphase : m.session.phase = .connected) (peer : Int)
    (payload : Bytes) :
    Ensures (acceptPayload tell peer payload) m (fun _ ↦ Stands config plain slack)
      fun _ ↦ False := by
  simp only [acceptPayload, ensures_ite, ensures_bind, ensures_remember]
  exact ⟨fun _ ↦ htell slack _ _ (h.remember hphase _), fun _ ↦ htell slack _ m h⟩

private theorem stands_acceptNotification (htell : Steady config plain tell)
    (h : m.Stands config plain slack)
    (hphase : m.session.phase = .connected) (response : Wire.Response) :
    Ensures (acceptNotification tell response) m (fun _ ↦ Stands config plain slack)
      fun _ ↦ False := by
  rw [acceptNotification, ensures_ite]
  refine ⟨fun _ ↦ stands_fail htell h.tidy, fun _ ↦ ?_⟩
  cases response.peerId? with
  | none => exact stands_fail htell h.tidy
  | some id =>
    simp only [ensures_bind, ensures_get, ensures_ite]
    exact ⟨fun _ ↦ stands_applyEntry htell h hphase _,
      fun _ ↦ stands_acceptPayload htell h hphase id _⟩

private theorem stands_startWait (htell : Steady config plain tell)
    (h : m.Stands config plain .none) (hphase : m.session.phase = .connected) :
    Ensures (startWait tell) m (fun _ ↦ Stands config plain .none) fun _ ↦ False := by
  obtain ⟨c, n, links, writable, -⟩ := h.exists_links hphase
  obtain ⟨⟨sent, hsent⟩, hsocket, hphases⟩ := n.issueWait_frame writable.id m.host
  have hafter := h.putNotify links.notify hsocket hphases
  simp only [startWait, ensures_bind, ensures_get, ensures_withNotify_of_eq links.notify, hsent,
    ensures_ofRequest_ok, ensures_ite, ensures_pure]
  constructor
  · intro _
    exact stands_fail htell hafter.tidy
  · intro _
    exact hafter

/-- The next wait settles what was outstanding. -/
theorem stands_rearmWait (htell : Steady config plain tell) (h : m.Stands config plain .wait)
    (hphase : m.session.phase = .connected) :
    Ensures (rearmWait tell) m (fun _ ↦ Stands config plain .none) fun _ ↦ False := by
  obtain ⟨c, n, links, writable, hdisarmed, hid, hx, -⟩ := h.exists_links hphase
  obtain ⟨⟨sent, hsent, hopen⟩, hsocket, hothers⟩ :=
    n.rearm_frame writable.id m.session.address m.host
  have links' := links.putNotify hsocket hothers
  simp only [rearmWait, ensures_bind, ensures_get, ensures_withNotify_of_eq links.notify, hsent,
    ensures_ofRequest_ok, ensures_ite, ensures_pure]
  constructor
  · intro _
    exact stands_fail htell (links'.tidy h.hasConfig)
  · intro hplaced
    refine .linked c _ h.hasConfig links' ⟨writable.id, writable.name⟩ ?_
    show Session.Fits .none m.session.phase _ _ _ _
    rw [hphase, hsocket]
    refine ⟨hdisarmed, hid, hx, ?_⟩
    intro hclosed
    exact absurd hclosed (hopen (by simpa using hplaced))

/-! ### Signals -/

private theorem stands_react_commandConnected (htell : Steady config plain tell)
    (h : m.Stands config plain slack) :
    Ensures (react tell .commandConnected) m (fun _ ↦ Stands config plain slack) fun _ ↦ False := by
  rw [react, ensures_bind, ensures_phase]
  split
  all_goals try contradiction
  all_goals first | exact stands_writeRequest htell h | exact ensures_pure.2 h

private theorem stands_react_commandAnswered (htell : Steady config plain tell)
    (h : m.Over config what c n) (response : Wire.Response) :
    Ensures (react tell (.commandAnswered (some what) response)) m
      (fun _ ↦ Stands config plain .none) fun _ ↦ False := by
  have htidy := h.links.tidy h.config
  rw [react, ensures_bind, ensures_phase]
  cases hphase : m.session.phase with
  | signingIn => exact stands_acceptSignIn htell h hphase response
  | connected => exact stands_acceptRelay htell (h.settled hphase) response
  | signingOut => exact stands_fail htell htidy
  | signingOutPending => exact stands_acceptDeferred htell h hphase response
  | disconnected => exact (hphase ▸ h.fits).elim
  | resolving => exact (hphase ▸ h.fits).elim

private theorem stands_react_commandRefused (htell : Steady config plain tell)
    (h : m.Over config what c n) :
    Ensures (react tell .commandRefused) m (fun _ ↦ Stands config plain .none) fun _ ↦ False := by
  have htidy := h.links.tidy h.config
  rw [react, ensures_bind, ensures_phase]
  cases hphase : m.session.phase with
  | signingIn => exact stands_armRetry h hphase
  | connected => exact stands_fail htell htidy
  | signingOut => exact stands_fail htell htidy
  | signingOutPending => exact stands_fail htell htidy
  | disconnected => exact (hphase ▸ h.fits).elim
  | resolving => exact (hphase ▸ h.fits).elim

private theorem stands_react_commandLost (htell : Steady config plain tell)
    (h : m.Over config what c n) :
    Ensures (react tell .commandLost) m (fun _ ↦ Stands config plain .none) fun _ ↦ False := by
  have htidy := h.links.tidy h.config
  rw [react, ensures_bind, ensures_phase]
  cases hphase : m.session.phase with
  | signingIn => exact stands_fail htell htidy
  | connected => exact stands_fail htell htidy
  | signingOut => exact stands_fail htell htidy
  | signingOutPending => exact ensures_discard.2 (stands_signOut htell (h.leaving hphase))
  | disconnected => exact (hphase ▸ h.fits).elim
  | resolving => exact (hphase ▸ h.fits).elim

private theorem stands_react_notifyAnswered (htell : Steady config plain tell)
    (h : m.Stands config plain slack) (response : Wire.Response) :
    Ensures (react tell (.notifyAnswered response)) m (fun _ ↦ Stands config plain slack)
      fun _ ↦ False := by
  rw [react, ensures_bind, ensures_phase]
  cases hphase : m.session.phase with
  | connected => exact stands_acceptNotification htell h hphase response
  | _ => exact ensures_pure.2 h

/-! ### Events of sockets -/

private theorem stands_onCommand_received (htell : Steady config plain tell)
    (h : m.Stands config plain .none)
    (hc : m.session.command = some c) (hopen : m.host.phaseOf c.socket ≠ .closed)
    (bytes : Bytes) :
    Ensures (onCommand tell (.received bytes)) m (fun _ ↦ Stands config plain .none)
      fun _ ↦ False := by
  rw [onCommand, ensures_bind, ensures_withCommand_of_eq hc]
  obtain ⟨hsocket, ⟨hhost, hx, hnot⟩ | ⟨hhost, hx, response, hfound⟩⟩ :=
    c.receive_cases bytes m.host
  · have hphase (k : Nat) : (c.receive bytes m.host).2.2.phaseOf k = m.host.phaseOf k := by
      rw [hhost]
    have hafter := h.putCommand hc hsocket hx hphase
    cases hread : (c.receive bytes m.host).1 with
    | error e => exact stands_fail htell hafter.tidy
    | ok found =>
      cases found with
      | none => exact ensures_pure.2 hafter
      | some found => exact absurd hread (hnot found)
  · obtain ⟨what, hwhat⟩ := Option.ne_none_iff_exists'.1 (h.busy hc hopen)
    have hphase (k : Nat) : (c.receive bytes m.host).2.2.phaseOf k =
        if c.socket = k then .closed else m.host.phaseOf k := by
      rw [hhost, Host.phaseOf_close]
    obtain ⟨n, hover⟩ := h.over hc hwhat hsocket hx hphase
    rw [hfound, hwhat]
    exact stands_react_commandAnswered htell hover response

private theorem stands_onCommand_closed (htell : Steady config plain tell)
    (h : m.Stands config plain .none)
    (hc : m.session.command = some c) (hopen : m.host.phaseOf c.socket ≠ .closed) (code : Int) :
    Ensures (onCommand tell (.closed code))
      { m with host := m.host.setPhase c.socket .closed } (fun _ ↦ Stands config plain .none)
      fun _ ↦ False := by
  obtain ⟨what, hwhat⟩ := Option.ne_none_iff_exists'.1 (h.busy hc hopen)
  have hover : ∃ n, (m.putCommand (c.abort.2, m.host.setPhase c.socket .closed)).Over config what
      c.abort.2 n := h.over hc hwhat rfl rfl (Host.phaseOf_setPhase_closed m.host c.socket)
  obtain ⟨n, hover⟩ := hover
  have hlink : ({ m with host := m.host.setPhase c.socket .closed } : Machine).session.command =
      some c := hc
  rw [onCommand, ensures_bind, ensures_withCommand_of_eq hlink, ensures_ite]
  constructor
  · intro _
    exact stands_react_commandRefused htell hover
  · intro _
    rw [ensures_ite]
    constructor
    · intro _
      exact stands_react_commandLost htell hover
    · intro hnone
      rw [CommandLink.abort, hwhat] at hnone
      exact absurd rfl hnone

/-- The induction is on the notifications still to be brought; only a session that is still
connected after them has something outstanding. -/
theorem stands_deliverAll (htell : Steady config plain tell) (h : m.Stands config plain slack)
    (responses : List Wire.Response) :
    Ensures (deliverAll tell responses) m
      (fun all after ↦ after.Stands config plain slack ∧
        (responses ≠ [] → (all = true ↔ after.session.phase = .connected))) fun _ ↦ False := by
  induction responses generalizing m with
  | nil => exact ensures_pure.2 ⟨h, fun hne ↦ absurd rfl hne⟩
  | cons response rest ih =>
    simp only [deliverAll, ensures_bind, ensures_phase, ensures_ite, ensures_pure]
    apply (stands_react_notifyAnswered htell h response).mono _ fun _ ↦ id
    intro _ after hafter
    constructor
    · intro hconnected
      cases rest with
      | nil => exact ensures_pure.2 ⟨hafter, fun _ ↦ iff_of_true rfl hconnected⟩
      | cons next rest =>
        exact (ih hafter).mono (fun _ _ hall ↦ ⟨hall.1, fun _ ↦ hall.2 (by simp)⟩) fun _ ↦ id
    · intro hleft
      exact ⟨hafter, fun _ ↦ iff_of_false Bool.false_ne_true hleft⟩

private theorem stands_onNotify_connected (htell : Steady config plain tell)
    (h : m.Stands config plain .none) :
    Ensures (onNotify tell .connected) m (fun _ ↦ Stands config plain .none) fun _ ↦ False := by
  rw [onNotify, react, ensures_bind, ensures_phase]
  cases hphase : m.session.phase with
  | connected => exact stands_startWait htell h hphase
  | _ => exact ensures_pure.2 h

private theorem stands_onNotify_received (htell : Steady config plain tell)
    (h : m.Stands config plain .none)
    (hn : m.session.notify = some n) (hopen : m.host.phaseOf n.socket ≠ .closed)
    (bytes : Bytes) :
    Ensures (onNotify tell (.received bytes)) m (fun _ ↦ Stands config plain .none)
      fun _ ↦ False := by
  have hphase := h.listening hn hopen
  rw [onNotify, ensures_bind, ensures_withNotify_of_eq hn]
  obtain ⟨hsocket, hothers, hnil⟩ := n.receive_frame bytes m.host
  generalize n.receive bytes m.host = read at hsocket hothers hnil
  obtain ⟨responses, outcome, n', host⟩ := read
  have hwaiting := h.awaiting hn hphase hsocket hothers
  have hdeliver : Ensures (do
      if (← deliverAll tell responses) && !responses.isEmpty then
        rearmWait tell) (m.putNotify (n', host)) (fun _ ↦ Stands config plain .none)
      fun _ ↦ False := by
    simp only [ensures_bind, ensures_ite, ensures_pure]
    cases responses with
    | nil =>
      have hsame := h.putNotify hn hsocket fun k ↦ congrArg (·.phaseOf k) (hnil rfl)
      exact ensures_pure.2 ⟨by simp, fun _ ↦ hsame⟩
    | cons response rest =>
      apply (stands_deliverAll htell hwaiting (response :: rest)).mono _ fun _ ↦ id
      intro all after hafter
      constructor
      · intro hall
        have hstill := (hafter.2 (by simp)).1 (by simpa using hall)
        exact stands_rearmWait htell hafter.1 hstill
      · intro hleft
        have hgone := mt (hafter.2 (by simp)).2 (by simpa using hleft)
        exact hafter.1.settle (fun _ ↦ hgone) (by simp)
  cases outcome with
  | failed error => exact stands_fail htell hwaiting.tidy
  | more => exact hdeliver
  | closing => exact hdeliver

private theorem stands_react_notifyRefused (htell : Steady config plain tell)
    (h : m.Stands config plain .wait) (hphase : m.session.phase = .connected) :
    Ensures (react tell .notifyRefused) m (fun _ ↦ Stands config plain .none) fun _ ↦ False := by
  rw [react, ensures_bind, ensures_phase, hphase]
  exact stands_fail htell h.tidy

private theorem stands_react_notifyLost (htell : Steady config plain tell)
    (h : m.Stands config plain .wait) (hphase : m.session.phase = .connected) :
    Ensures (react tell .notifyLost) m (fun _ ↦ Stands config plain .none) fun _ ↦ False := by
  rw [react, ensures_bind, ensures_phase, hphase]
  exact stands_rearmWait htell h hphase

private theorem stands_onNotify_closed (htell : Steady config plain tell)
    (h : m.Stands config plain .none)
    (hn : m.session.notify = some n) (hopen : m.host.phaseOf n.socket ≠ .closed) (code : Int) :
    Ensures (onNotify tell (.closed code))
      { m with host := m.host.setPhase n.socket .closed } (fun _ ↦ Stands config plain .none)
      fun _ ↦ False := by
  have hphase := h.listening hn hopen
  have hwaiting :
      (m.putNotify (n.abort, m.host.setPhase n.socket .closed)).Stands config plain .wait :=
    h.awaiting hn hphase rfl fun k hk ↦ Host.phaseOf_setPhase_of_ne _ hk.symm _
  have hlink : ({ m with host := m.host.setPhase n.socket .closed } : Machine).session.notify =
      some n := hn
  rw [onNotify, ensures_bind, ensures_withNotify_of_eq hlink, ensures_ite]
  constructor
  · intro _
    exact stands_react_notifyRefused htell hwaiting hphase
  · intro _
    exact stands_react_notifyLost htell hwaiting hphase

/-- What happens to a socket ends with everything fitting the phase, and stops at no fault. -/
theorem stands_onSocket (htell : Steady config plain tell) (h : m.Stands config plain .none)
    {k : Nat} {event : Channel.Event} (hpermits : (m.host.phaseOf k).Permits event) :
    Ensures (onSocket tell k event) m (fun _ ↦ Stands config plain .none) fun _ ↦ False := by
  have hopen : m.host.phaseOf k ≠ .closed := by
    cases event with
    | connected =>
      intro hclosed
      cases hclosed.symm.trans hpermits
    | received bytes =>
      intro hclosed
      cases hclosed.symm.trans hpermits
    | closed code => exact hpermits
  have hconnected : Channel.Phase.connected ≠ .closed := by decide
  simp only [onSocket, ensures_bind, ensures_modify, ensures_get, ensures_ite, ensures_pure,
    Option.any_eq_true, decide_eq_true_eq]
  refine ⟨?_, fun hcommand ↦ ⟨?_, fun hnotify ↦ ?_⟩⟩
  · intro hcommand
    obtain ⟨c, hc, rfl⟩ := hcommand
    cases event with
    | connected => exact stands_react_commandConnected htell (h.setPhase hopen hconnected)
    | received bytes =>
      have hsame : Stands config plain .none
          { m with host := m.host.setPhase c.socket (m.host.phaseOf c.socket) } :=
        h.setPhase hopen hopen
      exact stands_onCommand_received htell hsame hc
        (by rw [Host.phaseOf_setPhase_of_phase]; exact hopen) bytes
    | closed code => exact stands_onCommand_closed htell h hc hopen code
  · intro hnotify
    obtain ⟨n, hn, rfl⟩ := hnotify
    cases event with
    | connected => exact stands_onNotify_connected htell (h.setPhase hopen hconnected)
    | received bytes =>
      have hsame : Stands config plain .none
          { m with host := m.host.setPhase n.socket (m.host.phaseOf n.socket) } :=
        h.setPhase hopen hopen
      exact stands_onNotify_received htell hsame hn
        (by rw [Host.phaseOf_setPhase_of_phase]; exact hopen) bytes
    | closed code => exact stands_onNotify_closed htell h hn hopen code
  -- Only the sockets of the links are open, so that no other socket has an event.
  · refine absurd (h.tidy.closed k ?_) hopen
    intro hown
    rcases hown with ⟨c, hc, hk⟩ | ⟨n, hn, hk⟩
    · exact hcommand ⟨c, hc, hk⟩
    · exact hnotify ⟨n, hn, hk⟩

/-! ### Lookups and timers -/

/-- An answer to a lookup is the end of resolving, in time or not, but where the name cannot be
written: then the session goes on resolving, with fresh links. -/
theorem stands_onAnswer (htell : Steady config plain tell) (htidy : m.Tidy config)
    (hresolving : m.session.phase = .resolving → m.session.selfId = Peer.unsetId ∧
      m.session.retry.isArmed = false ∧ (plain → m.session.clientName.string?.isSome))
    (hother : m.session.phase ≠ .resolving → m.Stands config plain .none) (ip : Option String) :
    Ensures (onAnswer tell ip) m (fun _ ↦ Stands config plain .none)
      (Stands config plain .none) := by
  by_cases hphase : m.session.phase = .resolving
  · obtain ⟨hunset, hdisarmed, hnamed⟩ := hresolving hphase
    cases ip with
    | none =>
      rw [onAnswer, react, ensures_bind, ensures_phase, hphase]
      exact (stands_failToConnect htell htidy).of_steady
    | some ip =>
      rw [onAnswer, react, ensures_bind, ensures_phase, hphase]
      simp only [ensures_bind, ensures_remember, ensures_discard]
      have htidy' : Tidy config { m with
          session := { m.session with address := { m.session.address with host := ip } } } :=
        ⟨htidy.config, htidy.closed⟩
      refine (stands_dial htell htidy' hunset hdisarmed).mono (fun _ _ ↦ id) ?_
      rintro _ ⟨rfl, hnone⟩
      exact stands_openLinks_of_resolving htidy' hphase hunset hdisarmed fun hplain ↦
        Option.isSome_iff_ne_none.1 (hnamed hplain) hnone
  · have hidle : Ensures (pure ()) m (fun _ ↦ Stands config plain .none)
        (Stands config plain .none) := ensures_pure.2 (hother hphase)
    cases ip with
    | none =>
      rw [onAnswer, react, ensures_bind, ensures_phase]
      cases hp : m.session.phase with
      | resolving => exact absurd hp hphase
      | _ => exact hidle
    | some ip =>
      rw [onAnswer, react, ensures_bind, ensures_phase]
      cases hp : m.session.phase with
      | resolving => exact absurd hp hphase
      | _ => exact hidle

/-- The end of a lookup ends with everything fitting the phase. -/
theorem stands_onLookup (htell : Steady config plain tell) (h : m.Stands config plain .none)
    (ip : Option String) :
    Ensures (onLookup tell ip) m (fun _ ↦ Stands config plain .none)
      (Stands config plain .none) := by
  have htidy : Tidy config { m with session := { m.session with resolver := .idle } } :=
    ⟨h.tidy.config, h.tidy.closed⟩
  rw [onLookup, ensures_bind, ensures_remember]
  refine stands_onAnswer htell htidy (fun hphase ↦ ?_) (fun hphase ↦ ?_) ip
  · exact h.looking hphase
  · cases h with
    | disconnected hconfig ended unlinked closed =>
      have hover : Session.IsOver { m.session with resolver := .idle } :=
        ⟨ended.phase, ended.directory, ended.selfId, ended.disarmed, rfl, ended.exchange⟩
      exact .disconnected hconfig hover (unlinked.congr rfl rfl fun _ ↦ rfl) closed
    | resolving _ phase => exact absurd phase hphase
    | linked c n hconfig links writable fits =>
      exact .linked c n hconfig (links.congr rfl rfl fun _ ↦ rfl)
        ⟨writable.id, writable.name⟩ fits

/-- Only a session that is signing in waits for a timer. -/
theorem stands_onTimer (htell : Steady config plain tell) (h : m.Stands config plain .none)
    (timer : Nat) :
    Ensures (onTimer tell timer) m (fun _ ↦ Stands config plain .none) fun _ ↦ False := by
  simp only [onTimer, ensures_bind, ensures_get]
  cases hfire : m.session.retry.fire? timer with
  | none => exact ensures_pure.2 h
  | some retry =>
    obtain ⟨hlive, rfl⟩ := RetryTimer.fire?_eq_some_iff.1 hfire
    have harmed : m.session.retry.isArmed = true := by rw [RetryTimer.isArmed, hlive]; rfl
    obtain ⟨hphase, hunset, hnamed⟩ := h.retrying harmed
    rw [ensures_bind, ensures_remember, react, ensures_bind, ensures_phase, hphase]
    apply ensures_discard.2
    refine Ensures.mono (stands_dial htell ?_ hunset ?_) (fun _ _ ↦ id) ?_
    · exact ⟨h.tidy.config, h.tidy.closed⟩
    · rfl
    rintro _ ⟨-, hnone⟩
    exact Option.isSome_iff_ne_none.1 hnamed hnone

end SessionM

end Rendezvous
