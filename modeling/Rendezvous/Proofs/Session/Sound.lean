import Rendezvous.Proofs.Session.Change

/-!
# What holds of a session at every moment

A session that is disconnected has nothing due or looked up and knows nobody. Nobody is known before
the server has assigned an id, the own id is not among the peers, and the links are over sockets of
their roles. All this holds whatever happens, at the end of every step and
whenever the observer is told, with no condition on the network or the observer.
-/

namespace Rendezvous

/-! ### The own id in the directory -/

namespace Peer.Directory

variable {d : Directory}

/-- Storing somebody does not store the owner. -/
theorem absent_add (h : d.selfId ∉ d.peers) (id : Int) (name : String) :
    d.selfId ∉ (d.add id name).2.peers := by
  by_cases hown : id = d.selfId
  · rw [hown, add_self]
    exact h
  · rw [add_of_ne hown]
    simp [h, hown]

private theorem absent_addAll (h : d.selfId ∉ d.peers) (entries : List Entry) :
    d.selfId ∉ (d.addAll entries).2.peers := by
  induction entries generalizing d with
  | nil => exact h
  | cons entry rest ih =>
    have hrest := ih (d := (d.add entry.id entry.name).2) (by simpa using absent_add h _ _)
    simpa [addAll] using hrest

/-- Removing somebody does not store the owner. -/
theorem absent_remove (h : d.selfId ∉ d.peers) (id : Int) : d.selfId ∉ (d.remove id).2.peers := by
  simp [remove, h]

private theorem absent_rebuild (d : Directory) (entries : List Entry) :
    d.selfId ∉ (d.rebuild entries).2.peers :=
  absent_addAll (d := { d with peers := ∅ }) (by simp) entries

/-- Taking a listing over leaves the owner. -/
@[simp] theorem selfId_rebuild (d : Directory) (entries : List Entry) :
    (d.rebuild entries).2.selfId = d.selfId :=
  selfId_addAll _ entries

end Peer.Directory

/-! ### Sessions -/

/-- What holds of a session at every moment. -/
structure Session.IsSound (s : Session) : Prop where
  ended : s.phase = .disconnected → s.IsOver
  /-- Until the answer to signing in nobody is known. -/
  unknown : s.phase = .resolving ∨ s.phase = .signingIn ∨ s.exchange? = some .signIn →
    s.selfId = Peer.unsetId ∧ s.directory = .empty
  connected : s.phase = .connected → 0 ≤ s.selfId
  own : s.directory.selfId = s.selfId
  absent : s.selfId ∉ s.directory.peers
  writable : Numeral.IsWritable s.selfId

namespace Session

variable {s s' : Session}

private theorem isWritable_unsetId : Numeral.IsWritable Peer.unsetId :=
  Numeral.isWritable_of_lt (k := 1) (by decide) (by decide)

/-- A session that has heard nothing of the server is sound. -/
theorem isSound_of_unknown (hover : s.phase = .disconnected → s.IsOver)
    (hphase : s.phase ≠ .connected) (hself : s.selfId = Peer.unsetId)
    (hdirectory : s.directory = .empty) : s.IsSound where
  ended := hover
  unknown _ := ⟨hself, hdirectory⟩
  connected h := absurd h hphase
  own := by rw [hself, hdirectory]; rfl
  absent := by rw [hdirectory]; exact Std.ExtTreeMap.not_mem_empty
  writable := by rw [hself]; exact isWritable_unsetId

private theorem IsReset.isSound (h : s.IsReset) : s.IsSound :=
  isSound_of_unknown (fun _ ↦ h.toIsOver) (by simp [h.phase]) h.selfId h.directory

/-- An early session has heard nothing of the server. -/
theorem IsSound.early (h : s.IsSound) (hearly : s.IsEarly) :
    s.selfId = Peer.unsetId ∧ s.directory = .empty := by
  rcases hearly with hphase | hphase | hphase
  · exact ⟨(h.ended hphase).selfId, (h.ended hphase).directory⟩
  · exact h.unknown (.inl hphase)
  · exact h.unknown (.inr (.inl hphase))

/-- Of the links it matters only whether the session is still signing in. -/
theorem IsSound.congr (h : s.IsSound) (hphase : s'.phase = s.phase) (hself : s'.selfId = s.selfId)
    (hdirectory : s'.directory = s.directory)
    (hx : s'.exchange? = s.exchange? ∨ s'.exchange? ≠ some .signIn)
    (hover : s.IsOver → s'.IsOver) : s'.IsSound where
  ended h' := hover (h.ended (hphase ▸ h'))
  unknown h' := by
    rw [hself, hdirectory]
    apply h.unknown
    rw [hphase] at h'
    rcases hx with hx | hx
    · rwa [hx] at h'
    · exact h'.imp_right fun h' ↦ .inl (h'.resolve_right hx)
  connected h' := hself ▸ h.connected (hphase ▸ h')
  own := by rw [hself, hdirectory]; exact h.own
  absent := by rw [hself, hdirectory]; exact h.absent
  writable := hself ▸ h.writable

/-- A session that is leaving knows whom it knew. -/
theorem IsSound.leaving (h : s.IsSound) {p : Session.Phase}
    (hp : p = .signingOut ∨ p = .signingOutPending) : Session.IsSound { s with phase := p } where
  ended h' := by
    have hleft : p = .disconnected := h'
    rcases hp with hp | hp <;> cases hp.symm.trans hleft
  unknown h' := by
    apply h.unknown
    have hleft : p = .resolving ∨ p = .signingIn ∨ s.exchange? = some .signIn := h'
    rcases hp with rfl | rfl <;> exact .inr (.inr (by simpa using hleft))
  connected h' := by
    have hleft : p = .connected := h'
    rcases hp with hp | hp <;> cases hp.symm.trans hleft
  own := h.own
  absent := h.absent
  writable := h.writable

/-- Changes of the directory keep the own id out of it. -/
theorem IsSound.news (h : s.IsSound) (hphase : s.phase = .connected)
    {directory : Peer.Directory} (hself : directory.selfId = s.directory.selfId)
    (habsent : s.directory.selfId ∉ directory.peers)
    (hx : s.exchange? ≠ some .signIn) : Session.IsSound { s with directory } where
  ended h' := by cases hphase.symm.trans h'
  unknown h' := by
    have hnot : s.phase = .resolving ∨ s.phase = .signingIn ∨ s.exchange? = some .signIn := h'
    rw [hphase] at hnot
    simp [hx] at hnot
  connected := h.connected
  own := hself.trans h.own
  absent := h.own ▸ habsent
  writable := h.writable

/-- A session to which the server has just assigned an id. -/
theorem isSound_of_assigned
    (hphase : s.phase = .connected ∧ 0 ≤ s.selfId ∨ s.phase = .signingOutPending)
    (hx : s.exchange? ≠ some .signIn) (hown : s.directory.selfId = s.selfId)
    (habsent : s.selfId ∉ s.directory.peers) (hwritable : Numeral.IsWritable s.selfId) :
    s.IsSound where
  ended h := by rcases hphase with ⟨hphase, -⟩ | hphase <;> cases hphase.symm.trans h
  unknown h := by rcases hphase with ⟨hphase, -⟩ | hphase <;> simp [hphase, hx] at h
  connected h := by
    rcases hphase with ⟨-, hassigned⟩ | hphase
    · exact hassigned
    · cases hphase.symm.trans h
  own := hown
  absent := habsent
  writable := hwritable

/-- A connected session is not signing in any more. -/
theorem IsSound.exchange?_ne (h : s.IsSound) (hphase : s.phase = .connected) :
    s.exchange? ≠ some .signIn := by
  intro hx
  have hunset := (h.unknown (.inr (.inr hx))).1
  have hassigned := h.connected hphase
  rw [hunset] at hassigned
  exact absurd hassigned (by decide)

end Session

/-! ### Sessions on their hosts -/

namespace Machine

/-- What holds at every moment of a session that was made with settings. -/
structure IsSound (config : Config) (m : Machine) : Prop where
  made : m.config = config
  delay : m.session.retry.delay = config.reconnectDelay
  session : m.session.IsSound
  /-- The command link is over a socket made for it. -/
  command : ∀ k ∈ m.session.command.map CommandLink.socket, m.host.roles[k]? = some .command
  /-- The long poll is over a socket made for it, under the limit of the settings. -/
  notify : ∀ n ∈ m.session.notify, n.framer.limit = some config.maxResponseSize ∧
    m.host.roles[n.socket]? = some .notify

variable {config : Config} {m m' : Machine}

/-- A session that has done nothing yet is sound. -/
theorem isSound_fresh (config : Config) (observed : Bool) (policy : Policy) :
    (fresh config observed policy).IsSound config where
  made := rfl
  delay := rfl
  session := Session.IsReset.isSound ⟨⟨rfl, rfl, rfl, rfl, rfl, rfl⟩, rfl, rfl⟩
  command k hk := by cases hk
  notify n hn := by cases hn

private theorem IsSound.congr (h : m.IsSound config) (hsession : m'.session.IsSound)
    (hconfig : m'.config = m.config) (hdelay : m'.session.retry.delay = m.session.retry.delay)
    (hcommand : m'.session.command.map CommandLink.socket =
      m.session.command.map CommandLink.socket)
    (hnotify : m'.session.notify = m.session.notify) (hroles : m'.host.roles = m.host.roles) :
    m'.IsSound config where
  made := hconfig.trans h.made
  delay := hdelay.trans h.delay
  session := hsession
  command k hk := by
    rw [hroles]
    exact h.command k (hcommand ▸ hk)
  notify n hn := by
    rw [hroles]
    exact h.notify n (hnotify ▸ hn)

/-- Tearing down makes a session sound again, and needs only its settings for it. -/
theorem isSound_reset (hconfig : m.config = config)
    (hdelay : m.session.retry.delay = config.reconnectDelay) : m.reset.IsSound config where
  made := m.config_reset.trans hconfig
  delay := by rw [session_reset]; exact hdelay
  session := m.isReset_reset.isSound
  command k hk := by
    rw [m.isReset_reset.command] at hk
    cases hk
  notify n hn := by
    rw [m.isReset_reset.notify] at hn
    cases hn

private theorem IsSound.reset (h : m.IsSound config) : m.reset.IsSound config :=
  isSound_reset h.made h.delay

/-- Another command link over the same socket, which does not sign in if the old one did not. -/
theorem IsSound.putCommand (h : m.IsSound config) {c : CommandLink}
    (hc : m.session.command = some c) {after : CommandLink × Host Note}
    (hremains : CommandLink.Remains (c, m.host) after)
    (hx : after.1.exchange = c.exchange ∨ after.1.exchange ≠ some .signIn)
    (hidle : m.session.phase = .disconnected → after.1.exchange = c.exchange ∨
      after.1.exchange = none) : (m.putCommand after).IsSound config := by
  have hold := Session.exchange?_of_command hc
  refine h.congr (h.session.congr rfl rfl rfl ?_ ?_) rfl rfl ?_ rfl hremains.host.roles
  · rw [hold]
    exact hx
  · intro hover
    refine hover.linked (some after.1) _ ?_
    exact (hidle hover.phase).elim (fun hkept ↦ hkept.trans (hold.symm.trans hover.exchange)) id
  · rw [hc]
    exact congrArg some hremains.socket

/-- Another notify link over the same socket. -/
theorem IsSound.putNotify (h : m.IsSound config) {n : NotifyLink}
    (hn : m.session.notify = some n) {after : NotifyLink × Host Note}
    (hremains : NotifyLink.Remains (n, m.host) after) : (m.putNotify after).IsSound config where
  made := h.made
  delay := h.delay
  session := h.session.congr rfl rfl rfl (.inl rfl) fun hover ↦ hover.linked _ _ hover.exchange
  command k hk := by
    show after.2.roles[k]? = _
    rw [hremains.host.roles]
    exact h.command k hk
  notify n' hn' := by
    cases hn'
    show after.1.framer.limit = _ ∧ after.2.roles[after.1.socket]? = _
    rw [hremains.limit, hremains.socket, hremains.host.roles]
    exact h.notify n hn

private theorem IsSound.quiet (h : m.IsSound config) : m.quiet.IsSound config where
  made := m.config_quiet.trans h.made
  delay := by rw [session_quiet]; exact h.delay
  session := by
    rw [session_quiet]
    exact h.session.congr rfl rfl rfl (.inl rfl) fun hover ↦
      ⟨hover.phase, hover.directory, hover.selfId, rfl, rfl, hover.exchange⟩
  command k hk := by
    rw [session_quiet] at hk
    rw [m.retains_quiet.roles]
    exact h.command k hk
  notify n hn := by
    rw [session_quiet] at hn
    obtain ⟨n', hn', rfl⟩ := Option.map_eq_some_iff.1 hn
    rw [m.retains_quiet.roles]
    exact h.notify n' hn'

/-- Fresh links keep a session sound. -/
theorem IsSound.openLinks (h : m.IsSound config) : m.openLinks.IsSound config where
  made := m.config_openLinks.trans h.made
  delay := by
    rw [m.session_openLinks]
    exact h.delay
  session := by
    rw [m.session_openLinks]
    exact h.session.congr rfl rfl rfl (.inr (Option.some_ne_none _).symm) fun hover ↦
      hover.linked _ _ rfl
  command k hk := by
    rw [m.session_openLinks] at hk
    cases hk
    rw [m.roles_openLinks, ← Host.length_roles]
    simp
  notify n hn := by
    rw [m.session_openLinks] at hn
    cases hn
    refine ⟨congrArg (fun c ↦ some c.maxResponseSize) h.made, ?_⟩
    rw [m.roles_openLinks, ← Host.length_roles]
    simp

/-- A session that has heard nothing of the server stays sound once it signs in over fresh links. -/
theorem IsSound.signingIn (h : m.IsSound config) (hearly : m.session.IsEarly) {c : CommandLink}
    (hc : m.openLinks.session.command = some c) {after : CommandLink × Host Note}
    (hremains : CommandLink.Remains (c, m.openLinks.host) after) :
    ((m.openLinks.putCommand after).setPhase .signingIn).IsSound config := by
  obtain ⟨hself, hdirectory⟩ := h.session.early hearly
  refine h.openLinks.congr ?_ rfl rfl ?_ rfl hremains.host.roles
  · apply Session.isSound_of_unknown
    · exact fun hover ↦ by cases hover
    · exact Session.Phase.noConfusion
    · exact (congrArg Session.selfId m.session_openLinks).trans hself
    · exact (congrArg Session.directory m.session_openLinks).trans hdirectory
  · rw [hc]
    exact congrArg some hremains.socket

/-- An exchange after the sign-in that is started over a link at rest is on its way, or is given
up. -/
private theorem IsSound.start (h : m.IsSound config) {c : CommandLink}
    (hc : m.session.command = some c) (hidle : c.exchange = none)
    (hphase : m.session.phase ≠ .disconnected) {x : Exchange} (hx : x ≠ .signIn)
    (request : Bytes) :
    (m.putCommand (c.start x request m.session.address m.host).2).IsSound config := by
  apply h.putCommand hc (CommandLink.remains_start _ _ _ _ _) (.inr ?_) fun hended ↦
    absurd hended hphase
  rcases CommandLink.exchange_start_of_idle hidle x request m.session.address m.host with
    hstarted | hstarted
  · simpa [hstarted] using hx
  · simp [hstarted]

/-- Bytes over the command connection leave the exchange, or end it. -/
private theorem IsSound.receive (h : m.IsSound config) {c : CommandLink}
    (hc : m.session.command = some c) (bytes : Bytes) :
    (m.putCommand (c.receive bytes m.host).2).IsSound config := by
  have hremains := CommandLink.remains_receive c bytes m.host
  obtain ⟨-, ⟨-, hkept, -⟩ | ⟨-, hended, -⟩⟩ := c.receive_cases bytes m.host
  · exact h.putCommand hc hremains (.inl hkept) fun _ ↦ .inl hkept
  · exact h.putCommand hc hremains (.inr (by simp [hended])) fun _ ↦ .inr hended

/-- A session that is assigned an id is connected, and knows the peers of the listing. -/
private theorem IsSound.signIn (h : m.IsSound config) (hidle : m.session.exchange? = none)
    {id : Int} (hwritable : Numeral.IsWritable id) (hassigned : 0 ≤ id) (entries : List Peer.Entry)
    {n : NotifyLink} (hn : m.session.notify = some n) :
    (Machine.putNotify
      { m with session := {
          m.session.assign id with
          directory := ((m.session.assign id).directory.rebuild entries).2
          phase := .connected } }
      (n, (m.host.connect n.socket m.session.address).2)).IsSound config := by
  refine IsSound.congr (m := m) h ?_ rfl rfl rfl hn.symm (m.host.retains_connect _ _).roles
  apply Session.isSound_of_assigned (.inl ⟨rfl, hassigned⟩)
  · show m.session.exchange? ≠ some .signIn
    rw [hidle]
    exact (Option.some_ne_none _).symm
  · exact (m.session.assign id).directory.selfId_rebuild entries
  · exact (m.session.assign id).directory.absent_rebuild entries
  · exact hwritable

/-- A session that is about to leave takes the id over that the answer to signing in brings, and
nobody is known yet. -/
private theorem IsSound.adopt (h : m.IsSound config) (hphase : m.session.phase = .signingOutPending)
    {c : CommandLink} (hc : m.session.command = some c) (hsigning : c.exchange = some .signIn)
    (bytes : Bytes) (hended : (c.receive bytes m.host).2.1.exchange = none) {id : Int}
    (hwritable : Numeral.IsWritable id) :
    IsSound config
      { m.putCommand (c.receive bytes m.host).2 with
        session := (m.putCommand (c.receive bytes m.host).2).session.assign id } := by
  obtain ⟨-, hdirectory⟩ := h.session.unknown
    (.inr (.inr ((Session.exchange?_of_command hc).trans hsigning)))
  have hremains := c.remains_receive bytes m.host
  have hsocket : m.session.command.map CommandLink.socket =
      some (c.receive bytes m.host).2.1.socket := by
    rw [hc]
    exact congrArg some hremains.socket.symm
  refine h.congr ?_ rfl rfl hsocket.symm rfl hremains.host.roles
  apply Session.isSound_of_assigned
  · exact .inr hphase
  · show (c.receive bytes m.host).2.1.exchange ≠ some .signIn
    rw [hended]
    exact (Option.some_ne_none _).symm
  · rfl
  · show id ∉ m.session.directory.peers
    rw [hdirectory]
    exact Std.ExtTreeMap.not_mem_empty
  · exact hwritable

/-- News of the peers change the directory, which stays without the own id. -/
private theorem IsSound.news (h : m.IsSound config) (hphase : m.session.phase = .connected)
    {directory : Peer.Directory} (hself : directory.selfId = m.session.directory.selfId)
    (habsent : m.session.directory.selfId ∉ m.session.directory.peers →
      m.session.directory.selfId ∉ directory.peers) :
    IsSound config { m with session := { m.session with directory } } := by
  have hown : m.session.directory.selfId ∉ m.session.directory.peers :=
    h.session.own ▸ h.session.absent
  exact h.congr (h.session.news hphase hself (habsent hown) (h.session.exchange?_ne hphase))
    rfl rfl rfl rfl rfl

/-- Whatever becomes of a sound session at one go, it is sound again. -/
theorem IsSound.change {late : Int → Prop} {tell : Event → SessionM Unit}
    (htell : Keeps (IsSound config) tell) (h : m.IsSound config)
    (hchange : m.Change late tell m') : m'.IsSound config := by
  cases hchange with
  | fail => exact htell _ _ h.reset
  | giveUp => exact htell _ _ h.reset
  | refuse => exact htell _ _ h
  | name ended address clientName =>
    exact h.congr (h.session.congr rfl rfl rfl (.inl rfl) fun hover ↦
      hover.named address clientName) rfl rfl rfl rfl rfl
  | lookUp ended =>
    have hover := h.session.ended ended
    refine h.congr ?_ rfl rfl rfl rfl rfl
    exact Session.isSound_of_unknown (fun hover ↦ by cases hover) Session.Phase.noConfusion
      hover.selfId hover.directory
  | resolve phase =>
    refine h.congr (h.session.congr rfl rfl rfl (.inl rfl) fun hover ↦ ?_) rfl rfl rfl rfl rfl
    cases phase.symm.trans hover.phase
  | dial early _ command =>
    exact h.signingIn early command (CommandLink.remains_start _ _ _ _ _)
  | dialUnwritten => exact h.openLinks
  | dialRefused =>
    apply htell
    apply isSound_reset
    · exact m.config_openLinks.trans h.made
    · show m.openLinks.session.retry.delay = _
      rw [m.session_openLinks]
      exact h.delay
  | relay phase request command idle =>
    exact h.start command idle (by simp [phase]) Exchange.noConfusion request
  | quiet => exact h.quiet
  | pend => exact h.congr (h.session.leaving (.inr rfl)) rfl rfl rfl rfl rfl
  | leave => exact h.congr (h.session.leaving (.inl rfl)) rfl rfl rfl rfl rfl
  | signOut phase request command idle =>
    exact h.start command idle (by simp [phase]) Exchange.noConfusion request
  | @flush c command =>
    have hkept := (c.flush_frame m.host).2.1
    exact h.putCommand command (CommandLink.remains_flush _ _) (.inl hkept) fun _ ↦ .inl hkept
  | receive command bytes => exact h.receive command bytes
  | abort command =>
    exact h.putCommand command ⟨rfl, .refl _⟩ (.inr (by simp [CommandLink.abort])) fun _ ↦ .inr rfl
  | signIn phase idle writable assigned entries notify =>
    apply htell.announce
    exact h.signIn idle writable assigned entries notify
  | sent => exact htell _ _ h
  | adopt phase command signingIn bytes ended writable =>
    exact h.adopt phase command signingIn bytes ended writable
  | enter phase other name =>
    apply htell
    exact h.news phase (m.session.directory.selfId_add _ name) fun habsent ↦
      Peer.Directory.absent_add habsent _ name
  | depart phase id =>
    apply htell
    exact h.news phase rfl fun habsent ↦ Peer.Directory.absent_remove habsent id
  | message => exact htell _ _ h
  | issueWait notify => exact h.putNotify notify (NotifyLink.remains_issueWait _ _ _)
  | rearm notify => exact h.putNotify notify (NotifyLink.remains_rearm _ _ _ _)
  | receiveNotify notify => exact h.putNotify notify (NotifyLink.remains_receive _ _ _)
  | abortNotify notify => exact h.putNotify notify ⟨rfl, rfl, .refl _⟩
  | arm phase disarmed =>
    refine h.congr (h.session.congr rfl rfl rfl (.inl rfl) fun hover ↦ ?_) rfl rfl rfl rfl rfl
    cases phase.symm.trans hover.phase
  | fire =>
    exact h.congr (h.session.congr rfl rfl rfl (.inl rfl) fun hover ↦
      ⟨hover.phase, hover.directory, hover.selfId, rfl, hover.idle, hover.exchange⟩)
      rfl rfl rfl rfl rfl
  | lookedUp =>
    exact h.congr (h.session.congr rfl rfl rfl (.inl rfl) fun hover ↦
      ⟨hover.phase, hover.directory, hover.selfId, hover.disarmed, rfl, hover.exchange⟩)
      rfl rfl rfl rfl rfl
  | socket k phase =>
    exact h.congr h.session rfl rfl rfl rfl (m.host.retains_setPhase k phase).roles
  | observe => exact ⟨h.made, h.delay, h.session, h.command, h.notify⟩
  | grant => exact ⟨h.made, h.delay, h.session, h.command, h.notify⟩

/-- Being sound is kept by everything that happens to a session. -/
theorem isKept_isSound {late : Int → Prop} (config : Config) : IsKept late (IsSound config) where
  note _ _ _ h := h.congr h.session rfl rfl rfl rfl rfl
  close _ h := h.reset
  change _ _ _ htell h hchange := h.change htell hchange

/-- A session is sound after every run. -/
theorem isSound_run (config : Config) (observed : Bool) (policy : Policy) (o : Observer)
    (depth : Nat) (steps : List Step) :
    (run o depth (fresh config observed policy) steps).IsSound config :=
  (isKept_isSound config).run o depth (isSound_fresh config observed policy) steps

end Machine

end Rendezvous
