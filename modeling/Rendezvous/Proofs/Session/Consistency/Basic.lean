import Rendezvous.Proofs.Numeral
import Rendezvous.Proofs.Session.Logic
import Rendezvous.Proofs.Session.Machine

/-!
# What fits together in a session

The phase of a session says which links there are, what is in flight, and which sockets are open.
In the middle of a step two things may be outstanding that no step leaves behind: the next wait,
while notifications that came with a close are gone through, and the request to sign out, while the
exchange that it waited for is reported. Signing in under a name that cannot be written leaves links
behind that are never used; they are there only where such names are given.
-/

namespace Rendezvous

/-- What the step under way has still to do. -/
inductive Slack where
  | none
  | wait
  | signOut
  deriving DecidableEq

namespace Session

/-- What a phase with links says of the retry, the id, the exchange in flight and the notify
socket. -/
def Fits (slack : Slack) : Session.Phase → (armed : Bool) → (id : Int) → Option Exchange →
    Channel.Phase → Prop
  | .signingIn, armed, id, x, q => id = Peer.unsetId ∧ q = .closed ∧
      (armed = true ∧ x = none ∨ armed = false ∧ x = some .signIn)
  | .connected, armed, id, x, q => armed = false ∧ id ≠ Peer.unsetId ∧
      (x = none ∨ x = some .relay) ∧ (q = .closed → slack = .wait)
  | .signingOut, armed, id, x, q => armed = false ∧ id ≠ Peer.unsetId ∧ x = some .signOut ∧
      q = .closed
  | .signingOutPending, armed, id, x, q => armed = false ∧ q = .closed ∧
      (x = some .signIn ∧ id = Peer.unsetId ∨ x = some .relay ∧ id ≠ Peer.unsetId ∨
        x = none ∧ slack = .signOut)
  | _, _, _, _, _ => False

private theorem Fits.mono {slack : Slack} {p : Session.Phase} {armed : Bool} {id : Int}
    {x : Option Exchange} {q : Channel.Phase} (h : Fits .none p armed id x q) :
    Fits slack p armed id x q := by
  cases p with
  | connected =>
    obtain ⟨harmed, hid, hx, hq⟩ := h
    refine ⟨harmed, hid, hx, ?_⟩
    intro hclosed
    cases hq hclosed
  | signingOutPending =>
    obtain ⟨harmed, hq, hsignIn | hrelay | ⟨-, hslack⟩⟩ := h
    · exact ⟨harmed, hq, .inl hsignIn⟩
    · exact ⟨harmed, hq, .inr (.inl hrelay)⟩
    · cases hslack
  | _ => exact h

/-- Of the notify socket it matters only whether it is closed. -/
theorem Fits.congr {slack : Slack} {p : Session.Phase} {armed : Bool} {id : Int}
    {x : Option Exchange} {q q' : Channel.Phase} (h : Fits slack p armed id x q)
    (hq : q' = .closed ↔ q = .closed) : Fits slack p armed id x q' := by
  cases p <;> simp only [Fits, hq] at h ⊢ <;> exact h

/-- An exchange that is in flight when the session is left is one to wait for. -/
theorem Fits.pending {slack : Slack} {p : Session.Phase} {armed : Bool} {id : Int}
    {x : Option Exchange} {q : Channel.Phase} (h : Fits slack p armed id x q)
    (hp : p ≠ .signingOut) (hx : x ≠ none) : Fits .none .signingOutPending false id x .closed := by
  refine ⟨rfl, rfl, ?_⟩
  cases p with
  | signingIn =>
    obtain ⟨hid, -, ⟨-, hnone⟩ | ⟨-, hsignIn⟩⟩ := h
    · exact absurd hnone hx
    · exact .inl ⟨hsignIn, hid⟩
  | connected =>
    obtain ⟨-, hid, hnone | hrelay, -⟩ := h
    · exact absurd hnone hx
    · exact .inr (.inl ⟨hrelay, hid⟩)
  | signingOutPending =>
    obtain ⟨-, -, hsignIn | hrelay | ⟨hnone, -⟩⟩ := h
    · exact .inl hsignIn
    · exact .inr (.inl hrelay)
    · exact absurd hnone hx
  | signingOut => exact absurd rfl hp
  | disconnected => exact h.elim
  | resolving => exact h.elim

end Session

/-- What a session writes of itself can be written: its id and its name. -/
structure Session.IsWritable (s : Session) : Prop where
  id : Numeral.IsWritable s.selfId
  name : s.clientName.string?.isSome

namespace Machine

/-- The links are over two sockets, every other socket is closed, and an exchange is in flight just
while the command socket is not closed. -/
structure Linked (m : Machine) (c : CommandLink) (n : NotifyLink) : Prop where
  command : m.session.command = some c
  notify : m.session.notify = some n
  apart : c.socket ≠ n.socket
  idle : c.exchange = none ↔ m.host.phaseOf c.socket = .closed
  others : ∀ k, k ≠ c.socket → k ≠ n.socket → m.host.phaseOf k = .closed

/-- There are no links, or, where names need not be plain, two that were never used. -/
inductive Unlinked (plain : Prop) (m : Machine) : Prop where
  | absent (command : m.session.command = none) (notify : m.session.notify = none)
  | unused (c : CommandLink) (n : NotifyLink) (spoilt : ¬ plain) (links : m.Linked c n)

/-- A session made with settings is in one of its phases, and everything fits the phase. Names are
`plain` if every one that is given is a string. -/
inductive Stands (config : Config) (plain : Prop) (slack : Slack) (m : Machine) : Prop where
  | disconnected (hconfig : m.config = config) (ended : m.session.IsOver)
      (unlinked : m.Unlinked plain) (closed : ∀ k, m.host.phaseOf k = .closed)
  | resolving (hconfig : m.config = config) (phase : m.session.phase = .resolving)
      (unlinked : m.Unlinked plain) (unset : m.session.selfId = Peer.unsetId)
      (disarmed : m.session.retry.isArmed = false)
      (looking : plain → m.session.resolver.inFlight)
      (named : plain → m.session.clientName.string?.isSome)
      (closed : ∀ k, m.host.phaseOf k = .closed)
  | linked (c : CommandLink) (n : NotifyLink) (hconfig : m.config = config)
      (links : m.Linked c n) (writable : m.session.IsWritable)
      (fits : Session.Fits slack m.session.phase m.session.retry.isArmed m.session.selfId
        c.exchange (m.host.phaseOf n.socket))

/-- Every socket that is not closed is that of a link. -/
structure Tidy (config : Config) (m : Machine) : Prop where
  config : m.config = config
  closed : ∀ k, ¬ m.Owns k → m.host.phaseOf k = .closed

variable {config : Config} {plain : Prop} {slack : Slack} {m m' : Machine} {c c' : CommandLink}
  {n n' : NotifyLink} {host : Host Note}

/-! ### Frames -/

/-- Links stay as they are with the session's links and the phases of the sockets. -/
theorem Linked.congr (h : m.Linked c n) (hcommand : m'.session.command = m.session.command)
    (hnotify : m'.session.notify = m.session.notify)
    (hphase : ∀ k, m'.host.phaseOf k = m.host.phaseOf k) : m'.Linked c n where
  command := hcommand.trans h.command
  notify := hnotify.trans h.notify
  apart := h.apart
  idle := by rw [hphase]; exact h.idle
  others k hc hn := (hphase k).trans (h.others k hc hn)

/-- The two links are over different sockets. -/
theorem Linked.apart_of_mem (h : m.Linked c n) (hc : c' ∈ m.session.command)
    (hn : n' ∈ m.session.notify) : c'.socket ≠ n'.socket := by
  cases h.command.symm.trans hc
  cases h.notify.symm.trans hn
  exact h.apart

/-- Another command link over the same socket. -/
theorem Linked.putCommand (h : m.Linked c n) (hsocket : c'.socket = c.socket)
    (hidle : c'.exchange = none ↔ host.phaseOf c.socket = .closed)
    (hothers : ∀ k, k ≠ c.socket → host.phaseOf k = m.host.phaseOf k) :
    (m.putCommand (c', host)).Linked c' n where
  command := rfl
  notify := h.notify
  apart := by rw [hsocket]; exact h.apart
  idle := by rw [hsocket]; exact hidle
  others k hc hn := by
    rw [hsocket] at hc
    exact (hothers k hc).trans (h.others k hc hn)

/-- Another notify link over the same socket. -/
theorem Linked.putNotify (h : m.Linked c n) (hsocket : n'.socket = n.socket)
    (hothers : ∀ k, k ≠ n.socket → host.phaseOf k = m.host.phaseOf k) :
    (m.putNotify (n', host)).Linked c n' where
  command := h.command
  notify := rfl
  apart := by rw [hsocket]; exact h.apart
  idle := (hothers c.socket h.apart) ▸ h.idle
  others k hc hn := by
    rw [hsocket] at hn
    exact (hothers k hn).trans (h.others k hc hn)

/-- Whether there are links to speak of depends on the session's links and on the phases only. -/
theorem Unlinked.congr (h : m.Unlinked plain) (hcommand : m'.session.command = m.session.command)
    (hnotify : m'.session.notify = m.session.notify)
    (hphase : ∀ k, m'.host.phaseOf k = m.host.phaseOf k) : m'.Unlinked plain := by
  cases h with
  | absent command notify => exact .absent (hcommand.trans command) (hnotify.trans notify)
  | unused c n spoilt links => exact .unused c n spoilt (links.congr hcommand hnotify hphase)

/-- Links that were never used have no exchange in flight. -/
theorem Unlinked.exchange_eq_none (h : m.Unlinked plain) (hc : m.session.command = some c)
    (hclosed : ∀ k, m.host.phaseOf k = .closed) : c.exchange = none := by
  cases h with
  | absent command => cases command.symm.trans hc
  | unused c₀ n _ links =>
    cases links.command.symm.trans hc
    exact links.idle.2 (hclosed _)

/-- Where every name is plain there are no links. -/
theorem Unlinked.of_plain (h : m.Unlinked plain) (hplain : plain) :
    m.session.command = none ∧ m.session.notify = none := by
  cases h with
  | absent command notify => exact ⟨command, notify⟩
  | unused _ _ spoilt => exact absurd hplain spoilt

/-- What a session stands on is itself and the phases of the sockets. -/
theorem Stands.congr (h : m.Stands config plain slack) (hconfig : m'.config = m.config)
    (hsession : m'.session = m.session) (hphase : ∀ k, m'.host.phaseOf k = m.host.phaseOf k) :
    m'.Stands config plain slack := by
  cases h with
  | disconnected hconfig' ended unlinked closed =>
    have unlinked' := unlinked.congr (congrArg _ hsession) (congrArg _ hsession) hphase
    exact .disconnected (hconfig.trans hconfig') (hsession ▸ ended) unlinked'
      fun k ↦ (hphase k).trans (closed k)
  | resolving hconfig' phase unlinked unset disarmed looking named closed =>
    have unlinked' := unlinked.congr (congrArg _ hsession) (congrArg _ hsession) hphase
    rw [← hsession] at phase unset disarmed looking named
    exact .resolving (hconfig.trans hconfig') phase unlinked' unset disarmed looking named
      fun k ↦ (hphase k).trans (closed k)
  | linked c n hconfig' links writable fits =>
    have links' := links.congr (congrArg _ hsession) (congrArg _ hsession) hphase
    rw [← hsession, ← hphase] at fits
    exact .linked c n (hconfig.trans hconfig') links' (hsession ▸ writable) fits

/-- Another command link over the same socket and with the same exchange changes nothing, while no
socket is opened or closed. -/
theorem Stands.putCommand (h : m.Stands config plain slack) (hc : m.session.command = some c)
    (hsocket : c'.socket = c.socket) (hx : c'.exchange = c.exchange)
    (hphase : ∀ k, host.phaseOf k = m.host.phaseOf k) :
    (m.putCommand (c', host)).Stands config plain slack := by
  have hlinks {c₀ : CommandLink} {n : NotifyLink} (links : m.Linked c₀ n) :
      (m.putCommand (c', host)).Linked c' n := by
    cases links.command.symm.trans hc
    refine links.putCommand hsocket ?_ fun k _ ↦ hphase k
    rw [hx, hphase]
    exact links.idle
  have hunlinked (unlinked : m.Unlinked plain) : (m.putCommand (c', host)).Unlinked plain := by
    cases unlinked with
    | absent command => cases command.symm.trans hc
    | unused c₀ n spoilt links => exact .unused c' n spoilt (hlinks links)
  cases h with
  | disconnected hconfig ended unlinked closed =>
    have hidle : c'.exchange = none :=
      hx.trans ((Session.exchange?_of_command hc).symm.trans ended.exchange)
    exact .disconnected hconfig (ended.linked _ _ hidle) (hunlinked unlinked)
      fun k ↦ (hphase k).trans (closed k)
  | resolving hconfig phase unlinked unset disarmed looking named closed =>
    exact .resolving hconfig phase (hunlinked unlinked) unset disarmed looking named
      fun k ↦ (hphase k).trans (closed k)
  | linked c₀ n hconfig links writable fits =>
    have hfits := fits
    rw [Option.some.inj (links.command.symm.trans hc), ← hx, ← hphase] at hfits
    exact .linked c' n hconfig (hlinks links) ⟨writable.id, writable.name⟩ hfits

/-- Another notify link over the same socket changes nothing, while no socket is opened or
closed. -/
theorem Stands.putNotify (h : m.Stands config plain slack) (hn : m.session.notify = some n)
    (hsocket : n'.socket = n.socket) (hphase : ∀ k, host.phaseOf k = m.host.phaseOf k) :
    (m.putNotify (n', host)).Stands config plain slack := by
  have hlinks {c : CommandLink} {n₀ : NotifyLink} (links : m.Linked c n₀) :
      (m.putNotify (n', host)).Linked c n' := by
    cases links.notify.symm.trans hn
    exact links.putNotify hsocket fun k _ ↦ hphase k
  have hunlinked (unlinked : m.Unlinked plain) : (m.putNotify (n', host)).Unlinked plain := by
    cases unlinked with
    | absent _ notify => cases notify.symm.trans hn
    | unused c n₀ spoilt links => exact .unused c n' spoilt (hlinks links)
  cases h with
  | disconnected hconfig ended unlinked closed =>
    exact .disconnected hconfig (ended.linked _ _ ended.exchange) (hunlinked unlinked)
      fun k ↦ (hphase k).trans (closed k)
  | resolving hconfig phase unlinked unset disarmed looking named closed =>
    exact .resolving hconfig phase (hunlinked unlinked) unset disarmed looking named
      fun k ↦ (hphase k).trans (closed k)
  | linked c n₀ hconfig links writable fits =>
    have hfits := fits
    rw [Option.some.inj (links.notify.symm.trans hn), ← hphase, ← hsocket] at hfits
    exact .linked c n' hconfig (hlinks links) ⟨writable.id, writable.name⟩ hfits

/-- A socket that is open one way or another may be so in another way. -/
theorem Stands.setPhase (h : m.Stands config plain slack) {k : Nat}
    (hk : m.host.phaseOf k ≠ .closed) {q : Channel.Phase} (hq : q ≠ .closed) :
    Stands config plain slack { m with host := m.host.setPhase k q } := by
  have hphase (j : Nat) :
      (m.host.setPhase k q).phaseOf j = .closed ↔ m.host.phaseOf j = .closed := by
    by_cases hj : k = j
    · subst hj
      have hmade : k < m.host.sockets.length :=
        Nat.lt_of_not_le fun hle ↦ hk (Host.phaseOf_eq_closed_of_le hle)
      rw [Host.phaseOf_setPhase hmade]
      exact iff_of_false hq hk
    · rw [Host.phaseOf_setPhase_of_ne _ hj]
  cases h with
  | disconnected _ _ _ closed => exact absurd (closed k) hk
  | resolving _ _ _ _ _ _ _ closed => exact absurd (closed k) hk
  | linked c n hconfig links writable fits =>
    exact .linked c n hconfig ⟨links.command, links.notify, links.apart,
      links.idle.trans (hphase _).symm, fun j hc hn ↦ (hphase j).2 (links.others j hc hn)⟩ writable
      (fits.congr (hphase _))

/-- Where nothing is outstanding, anything may be allowed to be. -/
theorem Stands.mono (h : m.Stands config plain .none) : m.Stands config plain slack := by
  cases h with
  | disconnected hconfig ended unlinked closed => exact .disconnected hconfig ended unlinked closed
  | resolving hconfig phase unlinked unset disarmed looking named closed =>
    exact .resolving hconfig phase unlinked unset disarmed looking named closed
  | linked c n hconfig links writable fits => exact .linked c n hconfig links writable fits.mono

/-- A session keeps the settings that it was made with. -/
theorem Stands.hasConfig (h : m.Stands config plain slack) : m.config = config := by
  cases h <;> assumption

/-- Nothing outstanding matters but in the phases that know of it. -/
theorem Stands.settle (h : m.Stands config plain slack)
    (hwait : slack = .wait → m.session.phase ≠ .connected)
    (hsignOut : slack = .signOut → m.session.phase ≠ .signingOutPending) :
    m.Stands config plain .none := by
  cases h with
  | disconnected hconfig ended unlinked closed => exact .disconnected hconfig ended unlinked closed
  | resolving hconfig phase unlinked unset disarmed looking named closed =>
    exact .resolving hconfig phase unlinked unset disarmed looking named closed
  | linked c n hconfig links writable fits =>
    refine .linked c n hconfig links writable ?_
    cases hphase : m.session.phase <;> rw [hphase] at fits hwait hsignOut
    case connected =>
      obtain ⟨harmed, hid, hx, hq⟩ := fits
      refine ⟨harmed, hid, hx, ?_⟩
      intro hclosed
      exact absurd rfl (hwait (hq hclosed))
    case signingOutPending =>
      obtain ⟨harmed, hq, hsignIn | hrelay | ⟨-, hslack⟩⟩ := fits
      · exact ⟨harmed, hq, .inl hsignIn⟩
      · exact ⟨harmed, hq, .inr (.inl hrelay)⟩
      · exact absurd rfl (hsignOut hslack)
    all_goals exact fits

/-! ### Phases -/

/-- What is known of peers changes nothing while there are links. -/
theorem Stands.remember (h : m.Stands config plain slack) (hphase : m.session.phase = .connected)
    (directory : Peer.Directory) :
    Stands config plain slack { m with session := { m.session with directory } } := by
  cases h with
  | disconnected _ ended => cases hphase.symm.trans ended.phase
  | resolving _ phase => cases hphase.symm.trans phase
  | linked c n hconfig links writable fits =>
    exact .linked c n hconfig (links.congr rfl rfl fun _ ↦ rfl) ⟨writable.id, writable.name⟩ fits

/-- A connected session has links. -/
theorem Stands.exists_links (h : m.Stands config plain slack)
    (hphase : m.session.phase = .connected) :
    ∃ c n, m.Linked c n ∧ m.session.IsWritable ∧
      Session.Fits slack .connected m.session.retry.isArmed m.session.selfId c.exchange
        (m.host.phaseOf n.socket) := by
  cases h with
  | disconnected _ ended _ => cases hphase.symm.trans ended.phase
  | resolving _ phase => cases hphase.symm.trans phase
  | linked c n _ links writable fits => exact ⟨c, n, links, writable, hphase ▸ fits⟩

/-- A session that is disconnected is over, with every socket closed. -/
theorem Stands.isOver (h : m.Stands config plain slack)
    (hphase : m.session.phase = .disconnected) :
    m.session.IsOver ∧ m.Unlinked plain ∧ ∀ k, m.host.phaseOf k = .closed := by
  cases h with
  | disconnected _ ended unlinked closed => exact ⟨ended, unlinked, closed⟩
  | resolving _ phase =>
    rw [hphase] at phase
    cases phase
  | linked c n _ _ _ fits =>
    rw [hphase] at fits
    exact fits.elim

/-! ### Tearing down -/

/-- With both links in place, every other socket is closed. -/
theorem Linked.tidy (h : m.Linked c n) (hconfig : m.config = config) : m.Tidy config where
  config := hconfig
  closed k hk := by
    simp only [Owns, h.command, h.notify, Option.mem_def, Option.some.injEq, exists_eq_left',
      not_or] at hk
    exact h.others k (Ne.symm hk.1) (Ne.symm hk.2)

/-- Every socket that is not closed is that of a link. -/
theorem Stands.tidy (h : m.Stands config plain slack) : m.Tidy config := by
  cases h with
  | disconnected hconfig _ _ closed => exact ⟨hconfig, fun k _ ↦ closed k⟩
  | resolving hconfig _ _ _ _ _ _ closed => exact ⟨hconfig, fun k _ ↦ closed k⟩
  | linked c n hconfig links => exact links.tidy hconfig

/-! ### Keeping quiet -/

/-- Keeping quiet opens no socket. -/
theorem Tidy.quiet (h : m.Tidy config) : m.quiet.Tidy config where
  config := m.config_quiet.trans h.config
  closed k hk := by
    rw [phaseOf_quiet]
    split
    · rfl
    · apply h.closed k
      intro hown
      apply hk
      rw [Owns, session_quiet]
      apply hown.imp_right
      rintro ⟨n, hn, rfl⟩
      exact ⟨n.abort, Option.mem_map_of_mem _ hn, rfl⟩

/-- Keeping quiet leaves both links, the notify link without its wait. -/
theorem Linked.quiet (h : m.Linked c n) : m.quiet.Linked c n.abort where
  command := by rw [session_quiet]; exact h.command
  notify := by rw [session_quiet]; exact congrArg (Option.map _) h.notify
  apart := h.apart
  idle := by
    rw [phaseOf_quiet, h.notify, Option.any_some, if_neg (by simpa using h.apart.symm)]
    exact h.idle
  others k hc hn := by
    rw [phaseOf_quiet]
    split
    · rfl
    · exact h.others k hc hn

/-- The long poll is closed in a session that keeps quiet. -/
theorem Linked.phaseOf_notify_quiet (h : m.Linked c n) :
    m.quiet.host.phaseOf n.socket = .closed := by
  rw [phaseOf_quiet, h.notify, Option.any_some, if_pos (by simp)]

/-- Tearing down a tidy session leaves nothing open. -/
theorem Tidy.reset (h : m.Tidy config) : m.reset.Stands config plain slack :=
  .disconnected (m.config_reset.trans h.config) m.isReset_reset.toIsOver
    (.absent m.isReset_reset.command m.isReset_reset.notify) fun _ ↦ m.phaseOf_reset (h.closed _)

/-! ### Opening and starting -/

/-- Fresh links over closed sockets. -/
theorem Tidy.exists_linked_openLinks (h : m.Tidy config) :
    ∃ c n, m.openLinks.Linked c n ∧ c.exchange = none ∧ m.openLinks.config = config ∧
      (∀ k, m.openLinks.host.phaseOf k = .closed) ∧
      m.openLinks.session = { m.session with command := some c, notify := some n } := by
  have hsession := m.session_openLinks
  have hclosed (j : Nat) : m.openLinks.host.phaseOf j = .closed :=
    m.phaseOf_openLinks (h.closed j)
  refine ⟨_, _, ⟨by rw [hsession], by rw [hsession], ?_, ?_, fun j _ _ ↦ hclosed j⟩, rfl,
    m.config_openLinks.trans h.config, hclosed, hsession⟩
  · exact Nat.ne_of_lt (Nat.lt_succ_self _)
  · exact iff_of_true rfl (hclosed _)

end Machine

end Rendezvous
