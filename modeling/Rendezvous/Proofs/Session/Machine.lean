import Rendezvous.Proofs.Host
import Rendezvous.Session.Machine

/-!
# What tearing down and opening do to a machine

Each small operation on a machine, by what it does to the session, to the phases of the sockets and
to the log. Tearing down leaves nothing due, in flight or known, whatever there was before.
-/

namespace Rendezvous

/-- The exchange in flight. -/
def Session.exchange? (s : Session) : Option Exchange := s.command.bind CommandLink.exchange

/-- Nothing is due, looked up or in flight, and nobody is known. There may be links that were never
used. -/
structure Session.IsOver (s : Session) : Prop where
  phase : s.phase = .disconnected
  directory : s.directory = .empty
  selfId : s.selfId = Peer.unsetId
  disarmed : s.retry.isArmed = false
  idle : s.resolver.inFlight = false
  exchange : s.exchange? = none

/-- Nothing is due, in flight or open, and nobody is known. -/
structure Session.IsReset (s : Session) : Prop extends s.IsOver where
  command : s.command = none
  notify : s.notify = none

/-- A session that is over stays so under another name and for another server. -/
theorem Session.IsOver.named {s : Session} (h : s.IsOver) (address : Address)
    (clientName : Text.Raw) : Session.IsOver { s with address, clientName } :=
  ⟨h.phase, h.directory, h.selfId, h.disarmed, h.idle, h.exchange⟩

/-- The links of a session that is over do not matter, as long as no exchange is in flight. -/
theorem Session.IsOver.linked {s : Session} (h : s.IsOver) (command : Option CommandLink)
    (notify : Option NotifyLink) (hidle : command.bind CommandLink.exchange = none) :
    Session.IsOver { s with command, notify } :=
  ⟨h.phase, h.directory, h.selfId, h.disarmed, h.idle, hidle⟩

/-- The exchange in flight is that of the command link. -/
theorem Session.exchange?_of_command {s : Session} {c : CommandLink} (h : s.command = some c) :
    s.exchange? = c.exchange := by
  rw [exchange?, h, Option.bind_some]

/-- An exchange is in flight over a link that is busy. -/
theorem Session.exchange?_ne_none_of_isBusy {s : Session}
    (h : s.command.any CommandLink.isBusy = true) : s.exchange? ≠ none := by
  obtain ⟨c, hc, hbusy⟩ := Option.any_eq_true _ _ |>.1 h
  rw [exchange?_of_command hc]
  exact Option.isSome_iff_ne_none.1 hbusy

/-- No exchange is in flight over a link that is not busy. -/
theorem Session.exchange?_eq_none_of_not_isBusy {s : Session}
    (h : ¬ s.command.any CommandLink.isBusy = true) : s.exchange? = none := by
  cases hc : s.command with
  | none => rw [exchange?, hc, Option.bind_none]
  | some c =>
    rw [exchange?_of_command hc]
    simpa [hc, CommandLink.isBusy] using h

namespace Machine

/-- Whether a socket is that of a link of the session. -/
def Owns (m : Machine) (k : Nat) : Prop :=
  (∃ c ∈ m.session.command, c.socket = k) ∨ ∃ n ∈ m.session.notify, n.socket = k

variable (m : Machine)

/-! ### Giving up the retry and the lookup -/

private theorem session_cancelRetry :
    m.cancelRetry.session = { m.session with retry := m.session.retry.cancel } := by
  rw [cancelRetry]
  split
  · next h => rw [RetryTimer.cancel, ← h]
  · rfl

/-- A lookup that is given up leaves the resolver free. -/
theorem session_cancelLookup : m.cancelLookup.session = { m.session with resolver := .idle } := by
  rw [cancelLookup]
  split
  · rfl
  · next h =>
    have hidle : m.session.resolver = .idle := by
      rw [Resolver.idle, ← Bool.not_eq_true _ |>.mp h]
    rw [← hidle]

/-- Without a retry there is none to take back. -/
theorem cancelRetry_of_disarmed (h : m.session.retry.isArmed = false) : m.cancelRetry = m := by
  rw [cancelRetry, Option.isNone_iff_eq_none.1 (Option.isSome_eq_false_iff.1 h)]

/-- Without a lookup there is none to give up. -/
theorem cancelLookup_of_idle (h : m.session.resolver.inFlight = false) : m.cancelLookup = m := by
  rw [cancelLookup, h]
  exact if_neg Bool.false_ne_true

@[simp] private theorem phaseOf_cancelRetry (k : Nat) :
    m.cancelRetry.host.phaseOf k = m.host.phaseOf k := by
  rw [cancelRetry]
  split <;> rfl

@[simp] private theorem phaseOf_cancelLookup (k : Nat) :
    m.cancelLookup.host.phaseOf k = m.host.phaseOf k := by
  rw [cancelLookup]
  split <;> rfl

@[simp] private theorem config_cancelRetry : m.cancelRetry.config = m.config := by
  rw [cancelRetry]
  split <;> rfl

@[simp] private theorem config_cancelLookup : m.cancelLookup.config = m.config := by
  rw [cancelLookup]
  split <;> rfl

@[simp] private theorem observed_cancelRetry : m.cancelRetry.observed = m.observed := by
  rw [cancelRetry]
  split <;> rfl

@[simp] private theorem observed_cancelLookup : m.cancelLookup.observed = m.observed := by
  rw [cancelLookup]
  split <;> rfl

section Releases

variable {P : Action → Prop} (hP : ∀ a : Action, a.isRelease = true → P a)

include hP

private theorem asksOnly_cancelRetry : m.host.AsksOnly P m.cancelRetry.host := by
  rw [cancelRetry]
  split
  · exact .refl _
  · exact Host.asksOnly_ask _ (hP _ rfl)

private theorem asksOnly_cancelLookup : m.host.AsksOnly P m.cancelLookup.host := by
  rw [cancelLookup]
  split
  · exact Host.asksOnly_ask _ (hP _ rfl)
  · exact .refl _

end Releases

private theorem retains_cancelRetry : m.host.Retains m.cancelRetry.host := by
  rw [cancelRetry]
  split
  · exact .refl _
  · exact Host.retains_ask _ _

private theorem retains_cancelLookup : m.host.Retains m.cancelLookup.host := by
  rw [cancelLookup]
  split
  · exact Host.retains_ask _ _
  · exact .refl _

/-! ### Closing the links -/

/-- Closing the command link drops its exchange. -/
theorem session_closeCommand : m.closeCommand.session =
    { m.session with command := m.session.command.map fun c ↦ c.abort.2 } := by
  rw [closeCommand]
  split
  · next h => rw [h, Option.map_none, ← h]
  · next link h => rw [h]; rfl

/-- Closing the notify link drops its wait. -/
theorem session_closeNotify : m.closeNotify.session =
    { m.session with notify := m.session.notify.map NotifyLink.abort } := by
  rw [closeNotify]
  split
  · next h => rw [h, Option.map_none, ← h]
  · next link h => rw [h]; rfl

private theorem phaseOf_closeCommand (k : Nat) : m.closeCommand.host.phaseOf k =
    if m.session.command.any (·.socket = k) then .closed else m.host.phaseOf k := by
  rw [closeCommand]
  split
  · next h => simp [h]
  · next link h => simp [h, CommandLink.close, Host.phaseOf_close]

private theorem phaseOf_closeNotify (k : Nat) : m.closeNotify.host.phaseOf k =
    if m.session.notify.any (·.socket = k) then .closed else m.host.phaseOf k := by
  rw [closeNotify]
  split
  · next h => simp [h]
  · next link h => simp [h, NotifyLink.close, Host.phaseOf_close]

/-- Closing the command link leaves the settings. -/
@[simp] theorem config_closeCommand : m.closeCommand.config = m.config := by
  rw [closeCommand]
  split <;> rfl

/-- Closing the notify link leaves the settings. -/
@[simp] theorem config_closeNotify : m.closeNotify.config = m.config := by
  rw [closeNotify]
  split <;> rfl

/-- Closing the command link leaves the observer. -/
@[simp] theorem observed_closeCommand : m.closeCommand.observed = m.observed := by
  rw [closeCommand]
  split <;> rfl

/-- Closing the notify link leaves the observer. -/
@[simp] theorem observed_closeNotify : m.closeNotify.observed = m.observed := by
  rw [closeNotify]
  split <;> rfl

/-- Closing the command link asks for no more than closing. -/
theorem asksOnly_closeCommand {P : Action → Prop} (hclose : ∀ k, P (.close k)) :
    m.host.AsksOnly P m.closeCommand.host := by
  rw [closeCommand]
  split
  · exact .refl _
  · exact Host.asksOnly_close _ (hclose _)

/-- Closing the notify link asks for no more than closing. -/
theorem asksOnly_closeNotify {P : Action → Prop} (hclose : ∀ k, P (.close k)) :
    m.host.AsksOnly P m.closeNotify.host := by
  rw [closeNotify]
  split
  · exact .refl _
  · exact Host.asksOnly_close _ (hclose _)

private theorem retains_closeCommand : m.host.Retains m.closeCommand.host := by
  rw [closeCommand]
  split
  · exact .refl _
  · exact Host.retains_close _ _

private theorem retains_closeNotify : m.host.Retains m.closeNotify.host := by
  rw [closeNotify]
  split
  · exact .refl _
  · exact Host.retains_close _ _

/-! ### Keeping quiet -/

/-- What leaving begins with: no retry, no lookup, no long poll. -/
def quiet : Machine := m.cancelRetry.cancelLookup.closeNotify

/-- What leaving begins with, put together from its steps. -/
theorem quiet_eq : m.cancelRetry.cancelLookup.closeNotify = m.quiet := rfl

/-- A session that keeps quiet has no retry, no lookup and no wait. -/
theorem session_quiet : m.quiet.session = {
    m.session with
    retry := m.session.retry.cancel
    resolver := .idle
    notify := m.session.notify.map NotifyLink.abort } := by
  rw [quiet, session_closeNotify, session_cancelLookup, session_cancelRetry]

/-- Keeping quiet closes the long poll only. -/
theorem phaseOf_quiet (k : Nat) : m.quiet.host.phaseOf k =
    if m.session.notify.any (·.socket = k) then .closed else m.host.phaseOf k := by
  rw [quiet, phaseOf_closeNotify, session_cancelLookup, session_cancelRetry, phaseOf_cancelLookup,
    phaseOf_cancelRetry]

/-- Keeping quiet leaves the settings. -/
@[simp] theorem config_quiet : m.quiet.config = m.config := by
  simp [quiet]

/-- Keeping quiet leaves the observer. -/
@[simp] theorem observed_quiet : m.quiet.observed = m.observed := by
  simp [quiet]

/-- Keeping quiet only takes back. -/
theorem asksOnly_quiet {P : Action → Prop} (hP : ∀ a : Action, a.isRelease = true → P a) :
    m.host.AsksOnly P m.quiet.host :=
  (m.asksOnly_cancelRetry hP).trans <| (asksOnly_cancelLookup _ hP).trans <|
    asksOnly_closeNotify _ fun _ ↦ hP _ rfl

/-- Keeping quiet leaves nothing but requests in the log. -/
theorem asks_quiet : m.host.Asks m.quiet.host :=
  (m.asksOnly_quiet fun _ ↦ id).asks

/-- Keeping quiet makes no socket and sets no timer. -/
theorem retains_quiet : m.host.Retains m.quiet.host :=
  m.retains_cancelRetry.trans <| (retains_cancelLookup _).trans (retains_closeNotify _)

/-! ### Tearing down -/

/-- A machine that was torn down is reset. -/
theorem isReset_reset : m.reset.session.IsReset := by
  simp only [reset, session_closeNotify, session_closeCommand, session_cancelLookup,
    session_cancelRetry]
  exact ⟨⟨rfl, rfl, rfl, rfl, rfl, rfl⟩, rfl, rfl⟩

/-- Closing both links closes every socket, if those of no link are closed already. -/
theorem phaseOf_closeLinks {k : Nat} (h : ¬ m.Owns k → m.host.phaseOf k = .closed) :
    m.closeCommand.closeNotify.host.phaseOf k = .closed := by
  rw [phaseOf_closeNotify, phaseOf_closeCommand, session_closeCommand]
  split
  · rfl
  · split
    · rfl
    · apply h
      simp_all [Owns, Option.any_eq_true]

/-- Tearing down closes the sockets of both links. -/
theorem phaseOf_reset {k : Nat} (h : ¬ m.Owns k → m.host.phaseOf k = .closed) :
    m.reset.host.phaseOf k = .closed := by
  apply phaseOf_closeLinks
  rw [phaseOf_cancelLookup, phaseOf_cancelRetry]
  simpa only [Owns, session_cancelLookup, session_cancelRetry] using h

/-- A session that is torn down keeps its address and its name only. -/
theorem session_reset : m.reset.session = {
    m.session with
    retry := m.session.retry.cancel
    phase := .disconnected
    selfId := Peer.unsetId
    directory := .empty
    command := none
    notify := none
    resolver := .idle } := by
  simp only [reset, session_closeNotify, session_closeCommand, session_cancelLookup,
    session_cancelRetry]

/-- Tearing down is the same whatever phase the session is in and whoever is known. -/
theorem reset_known (phase : Session.Phase) (selfId : Int) (directory : Peer.Directory) :
    Machine.reset { m with session := { m.session with phase, selfId, directory } } = m.reset := by
  obtain ⟨config, observed, ⟨⟨delay, live⟩, p, a, c, i, d, command, notify, ⟨inFlight⟩⟩, host⟩ := m
  cases live <;> cases inFlight <;> cases command <;> cases notify <;> rfl

/-- Tearing down leaves the settings. -/
@[simp] theorem config_reset : m.reset.config = m.config := by
  simp [reset]

/-- Tearing down leaves the observer. -/
@[simp] theorem observed_reset : m.reset.observed = m.observed := by
  simp [reset]

/-- Tearing down only takes back. -/
theorem asksOnly_reset {P : Action → Prop} (hP : ∀ a : Action, a.isRelease = true → P a) :
    m.host.AsksOnly P m.reset.host :=
  (m.asksOnly_cancelRetry hP).trans <| (asksOnly_cancelLookup _ hP).trans <|
    (asksOnly_closeCommand _ fun _ ↦ hP _ rfl).trans <|
      asksOnly_closeNotify _ fun _ ↦ hP _ rfl

/-- To a session that is torn down nothing more can be done. -/
theorem reset_of_isReset (h : m.session.IsReset) : m.reset = m := by
  obtain ⟨config, observed, ⟨⟨delay, live⟩, p, a, c, i, d, command, notify, ⟨inFlight⟩⟩, host⟩ := m
  obtain ⟨⟨rfl, rfl, rfl, hdisarmed, rfl, -⟩, rfl, rfl⟩ := h
  cases Option.isNone_iff_eq_none.1 (Option.isSome_eq_false_iff.1 hdisarmed)
  rfl

/-- Tearing down leaves nothing but requests in the log. -/
theorem asks_reset : m.host.Asks m.reset.host :=
  (m.asksOnly_reset fun _ ↦ id).asks

/-- Tearing down makes no socket and sets no timer. -/
theorem retains_reset : m.host.Retains m.reset.host :=
  m.retains_cancelRetry.trans <| (retains_cancelLookup _).trans <|
    (retains_closeCommand _).trans (retains_closeNotify _)

/-! ### Opening fresh links -/

/-- Closing both links makes no socket and sets no timer. -/
theorem retains_closeLinks : m.host.Retains m.closeCommand.closeNotify.host :=
  m.retains_closeCommand.trans (retains_closeNotify _)

/-- The links that are opened are over two sockets that were not there. -/
theorem session_openLinks : m.openLinks.session = {
    m.session with
    command := some {
      socket := m.host.sockets.length
      framer := { limit := some m.config.maxResponseSize } }
    notify := some {
      socket := m.host.sockets.length + 1
      framer := { limit := some m.config.maxResponseSize } } } := by
  have hconfig : m.closeCommand.closeNotify.config = m.config := by
    rw [config_closeNotify, config_closeCommand]
  simp only [openLinks, session_closeNotify, session_closeCommand, hconfig, Host.makeSocket,
    List.length_append, List.length_singleton, m.retains_closeLinks.length]

/-- Opening links leaves the phase. -/
@[simp] theorem phase_openLinks : m.openLinks.session.phase = m.session.phase := by
  rw [session_openLinks]

/-- Opening links makes a socket for each of them, that of the command link first. -/
theorem roles_openLinks : m.openLinks.host.roles = m.host.roles ++ [.command, .notify] := by
  simp only [openLinks, Host.roles_makeSocket, m.retains_closeLinks.roles, List.append_assoc,
    List.singleton_append]

/-- Opening links sets no timer. -/
theorem timers_openLinks : m.openLinks.host.timers = m.host.timers := m.retains_closeLinks.timers

/-- Once new links are there, the sockets of the old ones are closed. -/
theorem phaseOf_openLinks {k : Nat} (h : ¬ m.Owns k → m.host.phaseOf k = .closed) :
    m.openLinks.host.phaseOf k = .closed := by
  simp only [openLinks, Host.phaseOf_makeSocket]
  exact m.phaseOf_closeLinks h

/-- Opening links leaves the settings. -/
@[simp] theorem config_openLinks : m.openLinks.config = m.config := by
  simp [openLinks]

/-- Opening links leaves the observer. -/
@[simp] theorem observed_openLinks : m.openLinks.observed = m.observed := by
  simp [openLinks]

/-- Opening links asks for no more than closing the old ones. -/
theorem asksOnly_openLinks {P : Action → Prop} (hclose : ∀ k, P (.close k)) :
    m.host.AsksOnly P m.openLinks.host :=
  (m.asksOnly_closeCommand hclose).trans (asksOnly_closeNotify _ hclose)

/-- Opening links leaves nothing but requests in the log. -/
theorem asks_openLinks : m.host.Asks m.openLinks.host :=
  (m.asksOnly_openLinks (P := fun _ ↦ True) fun _ ↦ trivial).asks

end Machine

end Rendezvous
