import Rendezvous.Proofs.Session.Endpoint.Calls

/-!
# Signals dial where the episode is headed

A retry, the long poll, the next wait and signing out that had to wait are all dialled at the
address that the session remembers, and no signal but the answer to a lookup changes that.
-/

namespace Rendezvous

open SessionM Machine

namespace Course

variable {config : Config} {start m : Machine} {past : List Bearing}
  {tell : Event → SessionM Unit} (htell : Machine.Keeps (Tied config start past) tell)
include htell

/-! ### The command link -/

private theorem tied_writeRequest (h : Tied config start past m) :
    Ensures (writeRequest tell) m (fun _ ↦ Tied config start past)
      (Tied config start past) := by
  rw [writeRequest, ensures_bind, ensures_withCommand]
  refine ⟨fun _ ↦ ensures_pure.2 h, fun c hcommand ↦ ?_⟩
  have hwritten := h.turnCommand hcommand (c.dials_flush m.host) (.inl (c.flush_frame m.host).2.1)
  cases (c.flush m.host).1 with
  | failed => exact tied_fail htell hwritten.toGuided
  | idle => exact ensures_pure.2 hwritten
  | written size => exact ensures_pure.2 hwritten

/-- Where the answer to signing in is accepted, the long poll is dialled at the address at which
the server was reached. -/
theorem tied_acceptSignIn (h : Tied config start past m) (hphase : m.session.phase = .signingIn)
    (response : Wire.Response) :
    Ensures (acceptSignIn tell response) m (fun _ ↦ Tied config start past)
      (Tied config start past) := by
  rw [acceptSignIn, ensures_ite]
  refine ⟨fun _ ↦ tied_fail htell h.toGuided, fun _ ↦ ?_⟩
  cases response.peerId? with
  | none => exact tied_fail htell h.toGuided
  | some id =>
    have hheads := h.ties.bound (by simp [hphase]) (by simp [hphase])
    have hknown (directory : Peer.Directory) : Tied config start past
        { m with session := { m.session.assign id with directory, phase := .connected } } :=
      h.remember hheads rfl (by simp) (by simp)
    have hdialled (n : NotifyLink) (directory : Peer.Directory) : Tied config start past
        (Machine.putNotify
          { m with session := { m.session.assign id with directory, phase := .connected } }
          (n, (m.host.connect n.socket m.session.address).2)) :=
      (hknown directory).startNotify Session.Phase.noConfusion Session.Phase.noConfusion
        (m.host.dials_connect n.socket m.session.address)
    simp only [ensures_ite, ensures_bind, ensures_get, ensures_remember, ensures_withNotify]
    refine ⟨fun _ ↦ tied_fail htell h.toGuided, fun _ ↦ ⟨fun _ ↦ ⟨by simp,
      fun _ ↦ tied_fail htell (hknown _).toGuided⟩, fun n hnotify ↦ ?_⟩⟩
    exact ⟨fun _ ↦ ensures_const.2 (Keeps.announce htell (hdialled n _) _),
      fun _ ↦ tied_fail htell (hdialled n _).toGuided⟩

private theorem tied_acceptRelay (h : Tied config start past m) (response : Wire.Response) :
    Ensures (acceptRelay tell response) m (fun _ ↦ Tied config start past)
      (Tied config start past) := by
  rw [acceptRelay, ensures_ite]
  exact ⟨fun _ ↦ ensures_const.2 (htell _ _ h), fun _ ↦ tied_fail htell h.toGuided⟩

private theorem tied_acceptDeferred (h : Tied config start past m)
    (hphase : m.session.phase = .signingOutPending) (what : Option Exchange)
    (response : Wire.Response) :
    Ensures (acceptDeferred tell what response) m (fun _ ↦ Tied config start past)
      (Tied config start past) := by
  have hleave {after : Machine} (hafter : Tied config start past after) :
      Ensures (do if (← phase) = .signingOutPending then discard (signOut tell)) after
        (fun _ ↦ Tied config start past) (Tied config start past) := by
    simp only [ensures_bind, ensures_phase, ensures_ite, ensures_discard, ensures_pure]
    exact ⟨fun _ ↦ tied_signOut htell hafter, fun _ ↦ hafter⟩
  rw [acceptDeferred, ensures_ite]
  refine ⟨fun _ ↦ tied_fail htell h.toGuided, fun _ ↦ ?_⟩
  rcases what with _ | _ | _ | _
  · exact hleave h
  · cases response.peerId? with
    | none => exact hleave h
    | some assigned =>
      rw [ensures_bind, ensures_remember]
      have hheads := h.ties.bound (by simp [hphase]) (by simp [hphase])
      exact hleave (h.remember hheads rfl (by simp [Session.assign, hphase])
        (by simp [Session.assign, hphase]))
  · rw [ensures_bind]
    exact (ensures_const.2 (htell _ _ h)).mono (fun _ _ ↦ hleave) fun _ ↦ id
  · exact hleave h

omit htell in
private theorem tied_armRetry (h : Tied config start past m) :
    Ensures armRetry m (fun _ ↦ Tied config start past) (Tied config start past) := by
  rw [ensures_armRetry]
  refine ⟨fun _ ↦ h, fun retry _ ↦ h.rest rfl ?_ fun _ hties ↦ hties.congr rfl rfl rfl rfl id⟩
  exact Host.dials_ask { m.host with timers := m.host.timers + 1 } (by simp)

/-! ### The notify link -/

omit htell in
/-- What is known of the peers has no part in where a session dials. -/
theorem Tied.know (h : Tied config start past m) (directory : Peer.Directory) :
    Tied config start past { m with session := { m.session with directory } } :=
  h.rest rfl (.refl _) fun _ hties ↦ hties.congr rfl rfl rfl rfl id

private theorem tied_acceptNotification (h : Tied config start past m) (response : Wire.Response) :
    Ensures (acceptNotification tell response) m (fun _ ↦ Tied config start past)
      (Tied config start past) := by
  have htold {after : Machine} (hafter : Tied config start past after) (e : Event) :
      Ensures (tell e) after (fun _ ↦ Tied config start past) (Tied config start past) :=
    ensures_const.2 (htell e after hafter)
  rw [acceptNotification, ensures_ite]
  refine ⟨fun _ ↦ tied_fail htell h.toGuided, fun _ ↦ ?_⟩
  cases response.peerId? with
  | none => exact tied_fail htell h.toGuided
  | some id =>
    simp only [ensures_bind, ensures_get, ensures_ite]
    constructor
    · intro _
      rw [applyEntry]
      cases Peer.Entry.read? (Text.Utf8.decodeLossy response.body) with
      | none => exact ensures_pure.2 h
      | some entry =>
        simp only [ensures_bind, ensures_get, ensures_ite, ensures_remember, ensures_pure]
        exact ⟨fun _ ↦ ⟨fun _ ↦ htold (h.know _) _, fun _ ↦ h.know _⟩,
          fun _ ↦ htold (h.know _) _⟩
    · intro _
      simp only [acceptPayload, ensures_ite, ensures_bind, ensures_remember]
      exact ⟨fun _ ↦ htold (h.know _) _, fun _ ↦ htold h _⟩

private theorem tied_startWait (h : Tied config start past m) :
    Ensures (startWait tell) m (fun _ ↦ Tied config start past) (Tied config start past) :=
  ensures_startWait (fun _ h ↦ tied_fail htell h.toGuided) (fun _ ↦ id) (fun _ ↦ id) h fun n _ ↦
    h.turnNotify (n.dials_issueWait m.session.selfId m.host)

/-- The next wait is dialled, where it has to be, at the address of the episode. -/
theorem tied_rearmWait (h : Tied config start past m) (hphase : m.session.phase = .connected) :
    Ensures (rearmWait tell) m (fun _ ↦ Tied config start past) (Tied config start past) := by
  apply ensures_rearmWait (fun _ h ↦ tied_fail htell h.toGuided) (fun _ ↦ id) (fun _ ↦ id) h
  intro n _
  exact h.startNotify (by simp [hphase]) (by simp [hphase])
    (n.dials_rearm m.session.selfId m.session.address m.host)

/-! ### Signals -/

/-- Whatever the signal, the session stays tied to its aim. The answer to a lookup is left out,
since it makes the aim known. -/
theorem tied_react (h : Tied config start past m) {signal : Signal}
    (hsignal : m.session.phase = .resolving → ∀ ip, signal ≠ .resolved ip) :
    Ensures (SessionM.react tell signal) m (fun _ ↦ Tied config start past)
      (Tied config start past) := by
  rw [SessionM.react, ensures_bind, ensures_phase]
  split
  · next hphase => exact absurd rfl (hsignal hphase _)
  · exact tied_failToConnect htell h.toGuided
  · next hphase =>
    have hheads := h.ties.bound (by simp [hphase]) (by simp [hphase])
    exact ensures_discard.2 (tied_dial htell h.toGuided hheads fun _ ↦ h.dialUnwritten)
  · exact tied_writeRequest htell h
  · exact tied_writeRequest htell h
  · exact tied_writeRequest htell h
  · exact tied_writeRequest htell h
  · next hphase => exact tied_acceptSignIn htell h hphase _
  · exact tied_acceptRelay htell h _
  · next hphase => exact tied_acceptDeferred htell h hphase _ _
  · exact tied_fail htell h.toGuided
  · exact tied_armRetry h
  · exact tied_fail htell h.toGuided
  · exact tied_fail htell h.toGuided
  · exact tied_fail htell h.toGuided
  · exact tied_fail htell h.toGuided
  · exact tied_fail htell h.toGuided
  · exact ensures_discard.2 (tied_signOut htell h)
  · exact tied_fail htell h.toGuided
  · exact tied_startWait htell h
  · exact tied_acceptNotification htell h _
  · next hphase => exact tied_rearmWait htell h hphase
  · exact tied_fail htell h.toGuided
  · exact ensures_pure.2 h

/-! ### Events of sockets -/

private theorem tied_onCommand (h : Tied config start past m) (event : Channel.Event) :
    Ensures (onCommand tell event) m (fun _ ↦ Tied config start past)
      (Tied config start past) := by
  cases event with
  | connected => exact tied_react htell h (by simp)
  | received bytes =>
    rw [onCommand, ensures_bind, ensures_withCommand]
    refine ⟨fun _ ↦ ensures_pure.2 h, fun c hcommand ↦ ?_⟩
    have hexchange : (c.receive bytes m.host).2.1.exchange = c.exchange ∨
        (c.receive bytes m.host).2.1.exchange = none :=
      (c.receive_cases bytes m.host).2.imp (·.2.1) (·.2.1)
    have hreceived := h.turnCommand hcommand (c.dials_receive bytes m.host) hexchange
    cases (c.receive bytes m.host).1 with
    | error e => exact tied_fail htell hreceived.toGuided
    | ok found =>
      cases found with
      | none => exact ensures_pure.2 hreceived
      | some found => exact tied_react htell hreceived (by simp)
  | closed code =>
    have hreact {after : Machine} (hafter : Tied config start past after)
        (what : Option Exchange) : Ensures (do
          if code = Channel.refusedCode then
            SessionM.react tell .commandRefused
          else if what.isSome then
            SessionM.react tell .commandLost) after (fun _ ↦ Tied config start past)
          (Tied config start past) := by
      simp only [ensures_ite, ensures_pure]
      exact ⟨fun _ ↦ tied_react htell hafter (by simp), fun _ ↦
        ⟨fun _ ↦ tied_react htell hafter (by simp), fun _ ↦ hafter⟩⟩
    rw [onCommand, ensures_bind, ensures_withCommand]
    refine ⟨fun _ ↦ hreact h none, fun c hcommand ↦ ?_⟩
    have haborted : Tied config start past (m.putCommand (c.abort.2, m.host)) :=
      h.turnCommand hcommand (.refl _) (.inr rfl)
    exact hreact haborted _

/-- The session is connected after the last notification, if there was one and all were brought. The
induction is on the notifications still to be brought. -/
theorem tied_deliverAll (h : Tied config start past m) (responses : List Wire.Response) :
    Ensures (deliverAll tell responses) m
      (fun brought after ↦ Tied config start past after ∧
        (brought = true → responses ≠ [] → after.session.phase = .connected))
      (Tied config start past) := by
  induction responses generalizing m with
  | nil => exact ensures_pure.2 ⟨h, fun _ hnone ↦ absurd rfl hnone⟩
  | cons response rest ih =>
    simp only [deliverAll, ensures_bind, ensures_phase, ensures_ite, ensures_pure]
    refine (tied_react htell h (by simp)).mono (fun _ after hafter ↦ ⟨fun hphase ↦ ?_,
      fun _ ↦ ⟨hafter, by simp⟩⟩) fun _ ↦ id
    cases rest with
    | nil => exact ensures_pure.2 ⟨hafter, fun _ _ ↦ hphase⟩
    | cons next rest =>
      exact (ih hafter).mono (fun _ _ hbrought ↦ ⟨hbrought.1, fun hall _ ↦
        hbrought.2 hall (List.cons_ne_nil next rest)⟩) fun _ ↦ id

private theorem tied_onNotify (h : Tied config start past m) (event : Channel.Event) :
    Ensures (onNotify tell event) m (fun _ ↦ Tied config start past)
      (Tied config start past) := by
  cases event with
  | connected => exact tied_react htell h (by simp)
  | received bytes =>
    have hdeliver {after : Machine} (hafter : Tied config start past after)
        (responses : List Wire.Response) : Ensures (do
          if (← deliverAll tell responses) && !responses.isEmpty then
            rearmWait tell) after (fun _ ↦ Tied config start past) (Tied config start past) := by
      simp only [ensures_bind, ensures_ite, ensures_pure]
      refine (tied_deliverAll htell hafter responses).mono
        (fun _ _ hbrought ↦ ⟨fun hall ↦ ?_, fun _ ↦ hbrought.1⟩) fun _ ↦ id
      rw [Bool.and_eq_true, Bool.not_eq_true', List.isEmpty_eq_false_iff] at hall
      exact tied_rearmWait htell hbrought.1 (hbrought.2 hall.1 hall.2)
    rw [onNotify, ensures_bind, ensures_withNotify]
    refine ⟨fun _ ↦ hdeliver h [], fun n hnotify ↦ ?_⟩
    have hreceived := h.turnNotify (n.dials_receive bytes m.host)
    generalize n.receive bytes m.host = read at hreceived
    obtain ⟨responses, outcome, received⟩ := read
    cases outcome with
    | failed error => exact tied_fail htell hreceived.toGuided
    | more => exact hdeliver hreceived responses
    | closing => exact hdeliver hreceived responses
  | closed code =>
    have hreact {after : Machine} (hafter : Tied config start past after) : Ensures (do
          if code = Channel.refusedCode then
            SessionM.react tell .notifyRefused
          else
            SessionM.react tell .notifyLost) after (fun _ ↦ Tied config start past)
          (Tied config start past) := by
      rw [ensures_ite]
      exact ⟨fun _ ↦ tied_react htell hafter (by simp),
        fun _ ↦ tied_react htell hafter (by simp)⟩
    rw [onNotify, ensures_bind, ensures_withNotify]
    refine ⟨fun _ ↦ hreact h, fun n hnotify ↦ ?_⟩
    have haborted : Tied config start past (m.putNotify (n.abort, m.host)) :=
      h.turnNotify (.refl _)
    exact hreact haborted

/-- What happens to a socket leads to no dial but of what the session aims at. -/
theorem tied_onSocket (h : Tied config start past m) (socket : Nat) (event : Channel.Event) :
    Ensures (onSocket tell socket event) m (fun _ ↦ Tied config start past)
      (Tied config start past) := by
  have hmoved : Tied config start past
      { m with host := m.host.setPhase socket ((m.host.phaseOf socket).after event) } :=
    h.rest rfl ⟨[], rfl, by simp⟩ fun _ ↦ id
  simp only [onSocket, ensures_bind, ensures_modify, ensures_get, ensures_ite, ensures_pure]
  exact ⟨fun _ ↦ tied_onCommand htell hmoved event, fun _ ↦
    ⟨fun _ ↦ tied_onNotify htell hmoved event, fun _ ↦ hmoved⟩⟩

/-- A retry dials what the session aims at. -/
theorem tied_onTimer (h : Tied config start past m) (timer : Nat) :
    Ensures (onTimer tell timer) m (fun _ ↦ Tied config start past) (Tied config start past) := by
  simp only [onTimer, ensures_bind, ensures_get]
  cases m.session.retry.fire? timer with
  | none => exact ensures_pure.2 h
  | some retry =>
    rw [ensures_bind, ensures_remember]
    have hfired : Tied config start past { m with session := { m.session with retry } } :=
      h.rest rfl (.refl _) fun _ hties ↦ hties.congr rfl rfl rfl rfl id
    exact tied_react htell hfired (by simp)

end Course

end Rendezvous
