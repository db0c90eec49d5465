import Rendezvous.Proofs.Session.Change

/-!
# Sockets and timers that are out of use

Sockets and timers pile up over retries and reconnections, and any of them may still have an event
at any time. A socket that no link is over, and a timer that is not the one that is due, stay so for
good: links are only ever opened over sockets that were not there, and only timers that were not
there are set. What happens to them does nothing.
-/

namespace Rendezvous

namespace Machine

instance (m : Machine) (k : Nat) : Decidable (m.Owns k) :=
  decidable_of_iff
    (m.session.command.any (·.socket = k) = true ∨ m.session.notify.any (·.socket = k) = true)
    (by simp [Owns, Option.any_eq_true])

/-- Of the sockets and timers that were there before, those in use were in use before. -/
structure Renews (before after : Machine) : Prop where
  sockets : before.host.sockets.length ≤ after.host.sockets.length
  owned : ∀ k < before.host.sockets.length, after.Owns k → before.Owns k
  timers : before.host.timers ≤ after.host.timers
  live : ∀ t < before.host.timers,
    after.session.retry.live = some t → before.session.retry.live = some t

variable {m m' m'' base : Machine}

private theorem Renews.refl (m : Machine) : m.Renews m :=
  ⟨Nat.le_refl _, fun _ _ ↦ id, Nat.le_refl _, fun _ _ ↦ id⟩

private theorem Renews.trans (h : m.Renews m') (h' : m'.Renews m'') : m.Renews m'' where
  sockets := Nat.le_trans h.sockets h'.sockets
  owned k hk hown := h.owned k hk (h'.owned k (Nat.lt_of_lt_of_le hk h.sockets) hown)
  timers := Nat.le_trans h.timers h'.timers
  live t ht hlive := h.live t ht (h'.live t (Nat.lt_of_lt_of_le ht h.timers) hlive)

/-- Nothing that was not in use comes into use where no socket is made and no timer is set. -/
theorem renews_of_retains (h : m.host.Retains m'.host) (howned : ∀ k, m'.Owns k → m.Owns k)
    (hlive : ∀ t, m'.session.retry.live = some t → m.session.retry.live = some t) :
    m.Renews m' where
  sockets := Nat.le_of_eq h.length.symm
  owned k _ := howned k
  timers := Nat.le_of_eq h.timers.symm
  live t _ := hlive t

/-- The command link is put in place over the same socket. -/
theorem Renews.putCommand {c : CommandLink} (hc : m.session.command = some c)
    {after : CommandLink × Host Note} (h : CommandLink.Remains (c, m.host) after) :
    m.Renews (m.putCommand after) := by
  refine renews_of_retains h.host ?_ fun _ ↦ id
  rintro k (⟨c', hc', hk⟩ | hnotify)
  · cases hc'
    exact .inl ⟨c, hc, h.socket.symm.trans hk⟩
  · exact .inr hnotify

/-- The notify link is put in place over the same socket. -/
theorem Renews.putNotify {n : NotifyLink} (hn : m.session.notify = some n)
    {after : NotifyLink × Host Note} (h : NotifyLink.Remains (n, m.host) after) :
    m.Renews (m.putNotify after) := by
  refine renews_of_retains h.host ?_ fun _ ↦ id
  rintro k (hcommand | ⟨n', hn', hk⟩)
  · exact .inl hcommand
  · cases hn'
    exact .inr ⟨n, hn, h.socket.symm.trans hk⟩

private theorem renews_reset (m : Machine) : m.Renews m.reset := by
  apply renews_of_retains m.retains_reset
  · rintro k (⟨c, hc, -⟩ | ⟨n, hn, -⟩)
    · cases m.isReset_reset.command.symm.trans hc
    · cases m.isReset_reset.notify.symm.trans hn
  · intro t hlive
    rw [session_reset] at hlive
    cases hlive

private theorem renews_quiet (m : Machine) : m.Renews m.quiet := by
  apply renews_of_retains m.retains_quiet
  · intro k
    rw [Owns, session_quiet]
    rintro (hcommand | ⟨n, hn, hk⟩)
    · exact .inl hcommand
    · obtain ⟨n', hn', rfl⟩ := Option.map_eq_some_iff.1 hn
      exact .inr ⟨n', hn', hk⟩
  · intro t hlive
    rw [session_quiet] at hlive
    cases hlive

/-- Links are opened over sockets that were not there. -/
theorem renews_openLinks (m : Machine) : m.Renews m.openLinks where
  sockets := by
    rw [← Host.length_roles, ← Host.length_roles, m.roles_openLinks, List.length_append]
    exact Nat.le_add_right _ _
  owned k hk := by
    rw [Owns, m.session_openLinks]
    rintro (⟨c, hc, rfl⟩ | ⟨n, hn, rfl⟩)
    · cases hc
      exact absurd hk (Nat.lt_irrefl _)
    · cases hn
      exact absurd hk (Nat.not_lt_of_le (Nat.le_succ _))
  timers := Nat.le_of_eq m.timers_openLinks.symm
  live t _ := by
    rw [m.session_openLinks]
    exact id

/-- What changes only the session, apart from its links and its retry. -/
theorem renews_session {s : Session} (hcommand : s.command = m.session.command)
    (hnotify : s.notify = m.session.notify) (hretry : s.retry = m.session.retry) :
    m.Renews { m with session := s } := by
  refine renews_of_retains (.refl _) ?_ ?_
  · intro k hown
    rwa [Owns, hcommand, hnotify] at hown
  · rw [hretry]
    exact fun _ ↦ id

/-- Whatever becomes of a machine, nothing out of use comes into use again. -/
theorem Renews.change {late : Int → Prop} {tell : Event → SessionM Unit}
    (htell : Keeps base.Renews tell) (h : base.Renews m) (hchange : m.Change late tell m') :
    base.Renews m' := by
  cases hchange with
  | fail => exact htell _ _ (h.trans m.renews_reset)
  | giveUp => exact htell _ _ (h.trans m.renews_reset)
  | refuse => exact htell _ _ h
  | name => exact h.trans (renews_session rfl rfl rfl)
  | lookUp =>
    exact h.trans (renews_of_retains (Host.retains_ask _ _) (fun _ ↦ id) fun _ ↦ id)
  | resolve => exact h.trans (renews_session rfl rfl rfl)
  | dial early request command =>
    have hput := Renews.putCommand command
      (CommandLink.remains_start _ .signIn request m.openLinks.session.address _)
    exact h.trans (m.renews_openLinks.trans (hput.trans (renews_session rfl rfl rfl)))
  | dialRefused early request command =>
    have hput := Renews.putCommand command
      (CommandLink.remains_start _ .signIn request m.openLinks.session.address _)
    exact htell _ _ (h.trans (m.renews_openLinks.trans (hput.trans (renews_reset _))))
  | dialUnwritten => exact h.trans m.renews_openLinks
  | relay phase request command =>
    exact h.trans (Renews.putCommand command (CommandLink.remains_start _ _ _ _ _))
  | quiet => exact h.trans m.renews_quiet
  | pend => exact h.trans (renews_session rfl rfl rfl)
  | leave => exact h.trans (renews_session rfl rfl rfl)
  | signOut phase request command =>
    exact h.trans (Renews.putCommand command (CommandLink.remains_start _ _ _ _ _))
  | flush command => exact h.trans (Renews.putCommand command (CommandLink.remains_flush _ _))
  | receive command =>
    exact h.trans (Renews.putCommand command (CommandLink.remains_receive _ _ _))
  | abort command => exact h.trans (Renews.putCommand command ⟨rfl, .refl _⟩)
  | @signIn phase idle id writable assigned entries n notify =>
    apply htell.announce
    refine h.trans (Renews.trans ?_ (Renews.putNotify (by exact notify) ?_))
    · exact renews_session rfl rfl rfl
    · exact ⟨rfl, rfl, m.host.retains_connect _ _⟩
  | sent => exact htell _ _ h
  | adopt phase command signingIn bytes =>
    exact h.trans ((Renews.putCommand command (CommandLink.remains_receive _ bytes _)).trans
      (renews_session rfl rfl rfl))
  | enter => exact htell _ _ (h.trans (renews_session rfl rfl rfl))
  | depart => exact htell _ _ (h.trans (renews_session rfl rfl rfl))
  | message => exact htell _ _ h
  | issueWait notify => exact h.trans (Renews.putNotify notify (NotifyLink.remains_issueWait _ _ _))
  | rearm notify => exact h.trans (Renews.putNotify notify (NotifyLink.remains_rearm _ _ _ _))
  | receiveNotify notify =>
    exact h.trans (Renews.putNotify notify (NotifyLink.remains_receive _ _ _))
  | abortNotify notify => exact h.trans (Renews.putNotify notify ⟨rfl, rfl, .refl _⟩)
  | arm =>
    refine h.trans ⟨Nat.le_refl _, fun _ _ ↦ id, Nat.le_succ _, fun t ht hlive ↦ ?_⟩
    cases hlive
    exact absurd ht (Nat.lt_irrefl _)
  | fire => exact h.trans (renews_of_retains (.refl _) (fun _ ↦ id) fun _ hlive ↦ by cases hlive)
  | lookedUp => exact h.trans (renews_session rfl rfl rfl)
  | socket k phase =>
    exact h.trans (renews_of_retains (m.host.retains_setPhase k phase) (fun _ ↦ id) fun _ ↦ id)
  | observe => exact h.trans ⟨Nat.le_refl _, fun _ _ ↦ id, Nat.le_refl _, fun _ _ ↦ id⟩
  | grant => exact h.trans ⟨Nat.le_refl _, fun _ _ ↦ id, Nat.le_refl _, fun _ _ ↦ id⟩

private theorem isKept_renews {late : Int → Prop} (base : Machine) : IsKept late base.Renews where
  note _ _ _ h := h.trans ⟨Nat.le_refl _, fun _ _ ↦ id, Nat.le_refl _, fun _ _ ↦ id⟩
  close m h := h.trans m.renews_reset
  change _ _ _ htell h hchange := h.change htell hchange

private theorem renews_run (m : Machine) (o : Observer) (depth : Nat) (steps : List Step) :
    m.Renews (m.run o depth steps) :=
  (isKept_renews m).run o depth (.refl m) steps

open SessionM

/-- An event of a socket that no link is over changes nothing but what the socket is found in. -/
theorem step_socket_of_not_owns {k : Nat} (hstale : ¬ m.Owns k) {ref : SocketRef}
    (href : m.find? ref = some k) (o : Observer) (depth : Nat) (event : Channel.Event) :
    m.step o depth (.socket ref event) =
      (.done, { m with host := m.host.setPhase k ((m.host.phaseOf k).after event) }) := by
  apply Ensures.runWith_eq
  simp only [Owns, not_or] at hstale
  simp only [Machine.react, ensures_bind, ensures_get, href, onSocket, ensures_modify,
    ensures_ite, ensures_pure]
  refine ⟨fun hcommand ↦ absurd ?_ hstale.1, fun _ ↦ ⟨fun hnotify ↦ absurd ?_ hstale.2,
    fun _ ↦ ⟨trivial, trivial⟩⟩⟩
  · simpa [Option.any_eq_true] using hcommand
  · simpa [Option.any_eq_true] using hnotify

/-- A timer that is not the one that is due does nothing when it fires. -/
theorem step_fire_of_not_live {t : Nat} (ht : t < m.host.timers)
    (hstale : m.session.retry.live ≠ some t) (o : Observer) (depth : Nat) :
    m.step o depth (.fire t) = (.fired, m) := by
  have hnot : m.session.retry.fire? t = none := by rw [RetryTimer.fire?, if_neg hstale]
  apply Ensures.runWith_eq
  simp only [Machine.react, onTimer, ensures_bind, ensures_get, ensures_ite, ensures_pure, hnot]
  exact ⟨fun _ ↦ ⟨trivial, trivial⟩, fun hmade ↦ absurd ht hmade⟩

/-- A socket that no link is over at some moment, and a timer that is not due then, are out of use
from then on: whatever happens to them later leaves the session, the log and all other sockets as
they are. -/
theorem inert_of_stale (config : Config) (observed : Bool) (policy : Policy) (o : Observer)
    (depth : Nat) (past later : List Step) :
    let m := run o depth (fresh config observed policy) past
    let m' := run o depth m later
    (∀ k < m.host.sockets.length, ¬ m.Owns k → ¬ m'.Owns k ∧
      ∀ ref event, m'.find? ref = some k → m'.step o depth (.socket ref event) =
        (.done, { m' with host := m'.host.setPhase k ((m'.host.phaseOf k).after event) })) ∧
    ∀ t < m.host.timers, m.session.retry.live ≠ some t → m'.session.retry.live ≠ some t ∧
      m'.step o depth (.fire t) = (.fired, m') := by
  intro m m'
  have hrenews : m.Renews m' := m.renews_run o depth later
  constructor
  · intro k hk hstale
    have hstale' : ¬ m'.Owns k := fun hown ↦ hstale (hrenews.owned k hk hown)
    exact ⟨hstale', fun ref event href ↦ step_socket_of_not_owns hstale' href o depth event⟩
  · intro t ht hstale
    have hstale' : m'.session.retry.live ≠ some t := fun hlive ↦ hstale (hrenews.live t ht hlive)
    exact ⟨hstale', step_fire_of_not_live (Nat.lt_of_lt_of_le ht hrenews.timers) hstale' o depth⟩

/-- The server refuses the first attempt to sign in, and the retry dials again. -/
def refusedOnce : List Step := [
  .call (.connect (some "10.0.0.5") none none),
  .socket (.newest .command) (.closed Channel.refusedCode),
  .fire 0]

/-- After the retry, neither the first command socket nor the timer has any effect, though the
second command socket has one. -/
theorem inert_of_stale_refusedOnce :
    let m := run .silent 0 (fresh (Config.standard "alice") true {}) refusedOnce
    let m' := run .silent 0 m [.socket (.newest .command) .connected]
    (0 < m.host.sockets.length ∧ ¬ m.Owns 0 ∧ m'.find? (.number 0) = some 0 ∧
      0 < m.host.timers ∧ m.session.retry.live ≠ some 0) ∧
    m'.step .silent 0 (.socket (.number 0) (.closed Channel.refusedCode)) =
      (.done, { m' with host := m'.host.setPhase 0 .closed }) ∧
    m'.step .silent 0 (.fire 0) = (.fired, m') := by
  intro m m'
  have hstale : 0 < m.host.sockets.length ∧ ¬ m.Owns 0 ∧ m'.find? (.number 0) = some 0 ∧
      0 < m.host.timers ∧ m.session.retry.live ≠ some 0 := by
    decide +kernel
  obtain ⟨hmade, hunowned, hfound, hset, hnot⟩ := hstale
  have hinert := inert_of_stale (Config.standard "alice") true {} .silent 0 refusedOnce
    [.socket (.newest .command) .connected]
  exact ⟨⟨hmade, hunowned, hfound, hset, hnot⟩, (hinert.1 0 hmade hunowned).2 _ _ hfound,
    (hinert.2 0 hset hnot).2⟩

end Machine

end Rendezvous
