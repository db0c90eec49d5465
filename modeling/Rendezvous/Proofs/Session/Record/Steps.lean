import Rendezvous.Proofs.Session.Record.Sockets

/-!
# Steps keep the record in order

What a session does in one step, whatever its observer does when it is told: all of it is in place
after what the record holds, and at the end the record tells of the session again.
-/

namespace Rendezvous

open Wire

namespace Record

variable {config : Config} {m : Machine} {past : List Entry} {c : CommandLink}

/-- A session with a command socket that is not closed has found its server. -/
theorem Ready.linked (h : Ready config past m) {k : Nat} (hopen : m.host.phaseOf k ≠ .closed) :
    m.session.phase ≠ .disconnected ∧ m.session.phase ≠ .resolving := by
  cases h.stands with
  | disconnected _ _ _ closed => exact absurd (closed k) hopen
  | resolving _ _ _ _ _ _ _ closed => exact absurd (closed k) hopen
  | linked c n _ _ _ fits =>
    exact ⟨fun hphase ↦ (hphase ▸ fits).elim, fun hphase ↦ (hphase ▸ fits).elim⟩

end Record

namespace SessionM

open Machine Record

variable {config : Config} {due : Prop} {tell : Event → SessionM Unit} {start m : Machine}
  {past : List Entry} {c : CommandLink} {n : NotifyLink} {what : Exchange}

/-! ### The command link -/

private theorem rests_writeRequest (htell : Tells config tell) (h : Ready config past m)
    (hc : m.session.command = some c) (hconnecting : m.host.phaseOf c.socket = .connecting) :
    Ensures (writeRequest tell) (moved m c.socket .connected)
      (fun _ ↦ At m (.event c.socket .connected :: past) (Rests config))
      (At m (.event c.socket .connected :: past) (Rests config)) := by
  have hlink : (moved m c.socket .connected).session.command = some c := hc
  obtain ⟨bytes, hpending⟩ := h.exists_pending hc hconnecting
  rw [writeRequest, ensures_bind, ensures_withCommand_of_eq hlink, CommandLink.flush, hpending]
  rcases (moved m c.socket .connected).host.send_cases c.socket bytes with ⟨hsent, -⟩ | hrefused
  · simp only [hsent]
    exact ensures_pure.2 (at_event m [_] (h.writeRequest hc hconnecting hpending) rfl)
  · simp only [hrefused]
    have hmoved := h.recorded_connected hc hconnecting
    apply rests_fail htell
    exact at_event m [] (hmoved.congr ⟨rfl, rfl, rfl⟩ fun _ ↦ rfl) rfl

private theorem rests_react_commandConnected (htell : Tells config tell) (h : Ready config past m)
    (hc : m.session.command = some c) (hconnecting : m.host.phaseOf c.socket = .connecting) :
    Ensures (react tell .commandConnected) (moved m c.socket .connected)
      (fun _ ↦ At m (.event c.socket .connected :: past) (Rests config))
      (At m (.event c.socket .connected :: past) (Rests config)) := by
  obtain ⟨hdisconnected, hresolving⟩ := h.linked (isOpen_of_permits (e := .connected) hconnecting)
  have hwritten := rests_writeRequest htell h hc hconnecting
  rw [react, ensures_bind, ensures_phase]
  cases hphase : (moved m c.socket .connected).session.phase with
  | disconnected => exact absurd hphase hdisconnected
  | resolving => exact absurd hphase hresolving
  | _ => exact hwritten

/-- What a response means in each phase that its exchange fits. -/
theorem kept_react_commandAnswered (htell : Tells config tell) {armed : Bool} {id : Int}
    {q : Channel.Phase} (hfits : Session.Fits .none m.session.phase armed id (some what) q)
    (hidle : m.session.exchange? = none) {response : Response}
    (hreport : what = .relay → response.isOk = true →
      At start past (Kept config False) (m.note (.heard (.messageSent 0) m.session)))
    (hother : (what = .relay → response.isOk = false) → At start past (Kept config False) m) :
    Ensures (react tell (.commandAnswered (some what) response)) m
      (fun _ ↦ At start past (Kept config False)) (At start past (Kept config False)) := by
  rw [react, ensures_bind, ensures_phase]
  cases hphase : m.session.phase <;> rw [hphase] at hfits
  case signingIn =>
    obtain ⟨-, -, ⟨-, hnone⟩ | ⟨-, hsome⟩⟩ := hfits
    · cases hnone
    · cases hsome
      exact kept_acceptSignIn htell (hother fun heq ↦ by cases heq) hidle response
  case connected =>
    obtain ⟨-, -, hnone | hsome, -⟩ := hfits
    · cases hnone
    · cases hsome
      show Ensures (acceptRelay tell response) m _ _
      rw [acceptRelay, ensures_ite]
      exact ⟨fun hok ↦ htell _ _ _ _ _ (hreport rfl hok), fun hnot ↦
        kept_fail htell (hother fun _ ↦ Bool.eq_false_iff.2 hnot).recorded⟩
  case signingOut =>
    obtain ⟨-, -, hsome, -⟩ := hfits
    cases hsome
    exact kept_fail htell (hother fun heq ↦ by cases heq).recorded
  case signingOutPending =>
    by_cases hok : what = .relay ∧ response.isOk = true
    · obtain ⟨rfl, hok⟩ := hok
      exact kept_acceptDeferred_relay htell hok (hreport rfl hok)
    · have hnot : what = .relay → response.isOk = false := fun hrelay ↦
        Bool.eq_false_iff.2 fun hgranted ↦ hok ⟨hrelay, hgranted⟩
      exact kept_acceptDeferred htell (hother hnot) hidle hnot
  case disconnected => exact hfits.elim
  case resolving => exact hfits.elim

private theorem kept_onCommand_received (htell : Tells config tell) (h : Ready config past m)
    (hc : m.session.command = some c) (hconnected : m.host.phaseOf c.socket = .connected)
    (bytes : Bytes) :
    Ensures (onCommand tell (.received bytes)) (moved m c.socket (.received bytes))
      (fun _ ↦ At m (.event c.socket (.received bytes) :: past) (Kept config False))
      (At m (.event c.socket (.received bytes) :: past) (Kept config False)) := by
  have hlink : (moved m c.socket (.received bytes)).session.command = some c := hc
  obtain ⟨what, hwhat, hunderway, hasked⟩ := h.asked hc hconnected
  have hbound := (h.kept.command c hc).bound
  rw [onCommand, ensures_bind, ensures_withCommand_of_eq hlink]
  rcases c.receive_reading bytes (moved m c.socket (.received bytes)).host with
    ⟨e, hnext, hread⟩ | ⟨hnext, hread⟩ | ⟨response, rest, hnext, hread⟩
  · have hwait : ∀ found, (c.framer.feed bytes).next? ≠ .ok (some found) := by simp [hnext]
    rw [hread]
    exact kept_fail htell (at_event m [] (h.await hc hconnected hwait) rfl).recorded
  · have hwait : ∀ found, (c.framer.feed bytes).next? ≠ .ok (some found) := by simp [hnext]
    rw [hread]
    exact ensures_pure.2 (at_event m [] (h.await hc hconnected hwait) rfl)
  · have hcompletes : Completes (some config.maxResponseSize) c.socket bytes past ↔
        what = .relay ∧ response.isOk = true := by
      rw [hasked.completes_iff hbound, hunderway.relay, hnext]
      simp
    have hover : ∃ n, (answered m c bytes).Over config what
        { c with framer := c.framer.reset, exchange := none } n :=
      h.stands.over hc hwhat rfl rfl (phaseOf_answered bytes)
    obtain ⟨n, hover⟩ := hover
    have hidle : (answered m c bytes).session.exchange? = none := rfl
    rw [hread, hwhat]
    refine kept_react_commandAnswered htell hover.fits hidle ?_ ?_
    · intro hrelay hok
      have hgranted := hcompletes.2 ⟨hrelay, hok⟩
      exact at_event m [_, _] (h.report hc hgranted hunderway.unreported) rfl
    · intro hnot
      have hother : ¬ Completes (some config.maxResponseSize) c.socket bytes past := by
        rw [hcompletes]
        rintro ⟨hrelay, hok⟩
        cases (hnot hrelay).symm.trans hok
      exact at_event m [_] (h.finish hc hconnected hother) rfl

private theorem kept_react_commandRefused (htell : Tells config tell)
    (h : At start past (Kept config due) m) :
    Ensures (react tell .commandRefused) m (fun _ ↦ At start past (Kept config due))
      (At start past (Kept config due)) := by
  rw [react, ensures_bind, ensures_phase]
  cases m.session.phase with
  | disconnected => exact ensures_pure.2 h
  | resolving => exact ensures_pure.2 h
  | signingIn => exact kept_armRetry h
  | _ => exact kept_fail htell h.recorded

private theorem kept_react_commandLost (htell : Tells config tell)
    (h : At start past (Kept config due) m) :
    Ensures (react tell .commandLost) m (fun _ ↦ At start past (Kept config due))
      (At start past (Kept config due)) := by
  rw [react, ensures_bind, ensures_phase]
  cases m.session.phase with
  | disconnected => exact ensures_pure.2 h
  | resolving => exact ensures_pure.2 h
  | signingOutPending => exact ensures_discard.2 (kept_signOut htell h)
  | _ => exact kept_fail htell h.recorded

private theorem kept_onCommand_closed (htell : Tells config tell) (h : Ready config past m)
    (hc : m.session.command = some c) (hopen : m.host.phaseOf c.socket ≠ .closed) (code : Int) :
    Ensures (onCommand tell (.closed code)) (moved m c.socket (.closed code))
      (fun _ ↦ At m (.event c.socket (.closed code) :: past) (Kept config False))
      (At m (.event c.socket (.closed code) :: past) (Kept config False)) := by
  have hlink : (moved m c.socket (.closed code)).session.command = some c := hc
  have hlost := at_event m [] (h.lose hc code hopen) rfl
  rw [onCommand, ensures_bind, ensures_withCommand_of_eq hlink]
  simp only [ensures_ite, ensures_pure]
  exact ⟨fun _ ↦ kept_react_commandRefused htell hlost, fun _ ↦
    ⟨fun _ ↦ kept_react_commandLost htell hlost, fun _ ↦ hlost⟩⟩

/-! ### The notify link -/

private theorem rests_onNotify_connected (htell : Tells config tell) (h : Ready config past m)
    (hn : m.session.notify = some n) (hconnecting : m.host.phaseOf n.socket = .connecting) :
    Ensures (onNotify tell .connected) (moved m n.socket .connected)
      (fun _ ↦ At m (.event n.socket .connected :: past) (Rests config))
      (At m (.event n.socket .connected :: past) (Rests config)) := by
  have hlink : (moved m n.socket .connected).session.notify = some n := hn
  have hopen := isOpen_of_permits (e := .connected) hconnecting
  have hphase : (moved m n.socket .connected).session.phase = .connected :=
    h.stands.listening hn hopen
  obtain ⟨_, _, -, writable, -⟩ := h.stands.exists_links hphase
  obtain ⟨request, hrequest⟩ := NotifyLink.exists_waitBytes writable.id
  have hid : NotifyLink.waitBytes (moved m n.socket .connected).session.selfId = .ok request :=
    hrequest
  rw [onNotify, react, ensures_bind, ensures_phase, hphase]
  simp only [startWait, ensures_bind, ensures_get, ensures_withNotify_of_eq hlink,
    NotifyLink.issueWait, hid, ensures_ofRequest_ok, ensures_ite, ensures_pure]
  rcases (moved m n.socket .connected).host.send_cases n.socket request with ⟨hsent, -⟩ | hrefused
  · simp only [hsent]
    have hwritten := h.writeWait hn hconnecting hrequest true
    exact ⟨by simp, fun _ ↦ at_event m [_] hwritten rfl⟩
  · simp only [hrefused]
    have hmoved := h.recorded_event hn .connected hconnecting
    refine ⟨fun _ ↦ rests_fail htell (at_event m [] (hmoved.congr ⟨rfl, rfl, rfl⟩ fun _ ↦ rfl) rfl),
      by simp⟩

/-- Where responses came and the session is still connected once they were brought, the next wait is
put in place. -/
theorem rests_deliver (htell : Tells config tell) {responses : List Response}
    (h : At start past (Kept config (responses ≠ [])) m) :
    Ensures (do
      if (← deliverAll tell responses) && !responses.isEmpty then
        rearmWait tell) m (fun _ ↦ At start past (Rests config))
      (At start past (Rests config)) := by
  simp only [ensures_bind, ensures_ite, ensures_pure]
  apply (kept_deliverAll htell h responses).mono
  · rintro all after ⟨hkept, hphase⟩
    refine ⟨fun hall ↦ ?_, fun _ ↦ hkept.imp fun _ ↦ Kept.rests⟩
    obtain ⟨hall, hsome⟩ : all = true ∧ responses ≠ [] := by simpa using hall
    exact rests_rearmWait htell (hkept.imp fun _ hkept ↦ hkept.weaken fun _ ↦ hsome)
      (hphase hall hsome)
  · exact fun _ hkept ↦ hkept.imp fun _ ↦ Kept.rests

private theorem rests_onNotify_received (htell : Tells config tell) (h : Ready config past m)
    (hn : m.session.notify = some n) (hconnected : m.host.phaseOf n.socket = .connected)
    (bytes : Bytes) :
    Ensures (onNotify tell (.received bytes)) (moved m n.socket (.received bytes))
      (fun _ ↦ At m (.event n.socket (.received bytes) :: past) (Rests config))
      (At m (.event n.socket (.received bytes) :: past) (Rests config)) := by
  have hlink : (moved m n.socket (.received bytes)).session.notify = some n := hn
  rw [onNotify, ensures_bind, ensures_withNotify_of_eq hlink]
  simp only [NotifyLink.receive]
  cases hout : (NotifyLink.drain (n.framer.feed bytes)).2.1 with
  | failed e =>
    have hmoved := h.recorded_event hn (.received bytes) hconnected
    apply rests_fail htell
    exact at_event m [] (hmoved.congr ⟨rfl, rfl, rfl⟩ fun _ ↦ rfl) rfl
  | more => exact rests_deliver htell (at_event m [] (h.read hn hconnected hout _) rfl)
  | closing =>
    have hlimit := NotifyLink.limit_drain (n.framer.feed bytes)
    have hempty := buffer_of_closing hout
    exact rests_deliver htell (at_event m [_]
      ((h.readLast hn hconnected hlimit hempty _).weaken fun _ ↦ trivial) rfl)

private theorem rests_react_notifyRefused (htell : Tells config tell)
    (h : At start past (Kept config True) m) (hphase : m.session.phase = .connected) :
    Ensures (react tell .notifyRefused) m (fun _ ↦ At start past (Rests config))
      (At start past (Rests config)) := by
  rw [react, ensures_bind, ensures_phase, hphase]
  exact rests_fail htell h.recorded

private theorem rests_react_notifyLost (htell : Tells config tell)
    (h : At start past (Kept config True) m) (hphase : m.session.phase = .connected) :
    Ensures (react tell .notifyLost) m (fun _ ↦ At start past (Rests config))
      (At start past (Rests config)) := by
  rw [react, ensures_bind, ensures_phase, hphase]
  exact rests_rearmWait htell h hphase

private theorem rests_onNotify_closed (htell : Tells config tell) (h : Ready config past m)
    (hn : m.session.notify = some n) (hopen : m.host.phaseOf n.socket ≠ .closed) (code : Int) :
    Ensures (onNotify tell (.closed code)) (moved m n.socket (.closed code))
      (fun _ ↦ At m (.event n.socket (.closed code) :: past) (Rests config))
      (At m (.event n.socket (.closed code) :: past) (Rests config)) := by
  have hlink : (moved m n.socket (.closed code)).session.notify = some n := hn
  have hphase := h.stands.listening hn hopen
  have hdropped := at_event m [] (h.drop hn code hopen) rfl
  rw [onNotify, ensures_bind, ensures_withNotify_of_eq hlink, ensures_ite]
  exact ⟨fun _ ↦ rests_react_notifyRefused htell hdropped hphase,
    fun _ ↦ rests_react_notifyLost htell hdropped hphase⟩

/-! ### Sockets, lookups and timers -/

/-- What happens to a socket is recorded, and the step ends at rest. -/
theorem rests_onSocket (htell : Tells config tell) (h : Ready config past m) {k : Nat}
    {e : Channel.Event} (hpermits : (m.host.phaseOf k).Permits e) :
    Ensures (onSocket tell k e) m (fun _ ↦ At m (.event k e :: past) (Rests config))
      (At m (.event k e :: past) (Rests config)) := by
  have hopen := isOpen_of_permits hpermits
  simp only [onSocket, ensures_bind, ensures_modify, ensures_get, ensures_ite, ensures_pure,
    Option.any_eq_true, decide_eq_true_eq]
  refine ⟨?_, fun hcommand ↦ ⟨?_, fun hnotify ↦ ?_⟩⟩
  · rintro ⟨c, hc, rfl⟩
    cases e with
    | connected => exact rests_react_commandConnected htell h hc hpermits
    | received bytes => exact (kept_onCommand_received htell h hc hpermits bytes).rests
    | closed code => exact (kept_onCommand_closed htell h hc hopen code).rests
  · rintro ⟨n, hn, rfl⟩
    cases e with
    | connected => exact rests_onNotify_connected htell h hn hpermits
    | received bytes => exact rests_onNotify_received htell h hn hpermits bytes
    | closed code => exact rests_onNotify_closed htell h hn hopen code
  -- Only the sockets of the links are open, so that no other socket has an event.
  · refine absurd (h.stands.tidy.closed k ?_) hopen
    rintro (⟨c, hc, hk⟩ | ⟨n, hn, hk⟩)
    · exact hcommand ⟨c, hc, hk⟩
    · exact hnotify ⟨n, hn, hk⟩

/-- An answer to a lookup keeps the record. -/
theorem kept_onAnswer (htell : Tells config tell) (h : At start past (Kept config due) m)
    (ip : Option String) :
    Ensures (onAnswer tell ip) m (fun _ ↦ At start past (Kept config due))
      (At start past (Kept config due)) := by
  cases ip with
  | none =>
    rw [onAnswer, react, ensures_bind, ensures_phase]
    cases m.session.phase with
    | resolving => exact kept_failToConnect htell h.recorded
    | _ => exact ensures_pure.2 h
  | some ip =>
    rw [onAnswer, react, ensures_bind, ensures_phase]
    cases hphase : m.session.phase with
    | resolving =>
      simp only [ensures_bind, ensures_remember, ensures_discard]
      refine kept_dial htell (h.recorded.same rfl fun _ hrecorded ↦
        hrecorded.congr ⟨rfl, rfl, rfl⟩ fun _ ↦ rfl) ?_
      exact fun hconnected ↦ by cases hphase.symm.trans hconnected
    | _ => exact ensures_pure.2 h

/-- The end of a lookup keeps the record. -/
theorem kept_onLookup (htell : Tells config tell) (h : At start past (Kept config due) m)
    (ip : Option String) :
    Ensures (onLookup tell ip) m (fun _ ↦ At start past (Kept config due))
      (At start past (Kept config due)) := by
  rw [onLookup, ensures_bind, ensures_remember]
  apply kept_onAnswer htell
  exact h.same rfl fun _ hkept ↦
    hkept.congr ⟨rfl, rfl, rfl⟩ (fun _ ↦ rfl) ⟨rfl, rfl, rfl, rfl, id, id⟩

/-- A retry keeps the record. -/
theorem kept_onTimer (htell : Tells config tell) (h : At start past (Kept config due) m)
    (timer : Nat) :
    Ensures (onTimer tell timer) m (fun _ ↦ At start past (Kept config due))
      (At start past (Kept config due)) := by
  simp only [onTimer, ensures_bind, ensures_get]
  cases m.session.retry.fire? timer with
  | none => exact ensures_pure.2 h
  | some retry =>
    have hfired : At start past (Kept config due)
        { m with session := { m.session with retry } } :=
      h.same rfl fun _ hkept ↦
        hkept.congr ⟨rfl, rfl, rfl⟩ (fun _ ↦ rfl) ⟨rfl, rfl, rfl, rfl, id, id⟩
    rw [ensures_bind, ensures_remember, react, ensures_bind, ensures_phase]
    split
    all_goals try contradiction
    · next hphase _ =>
      refine ensures_discard.2 (kept_dial htell hfired.recorded ?_)
      exact fun hconnected ↦ by cases hphase.symm.trans hconnected
    · exact ensures_pure.2 hfired

end SessionM

end Rendezvous
