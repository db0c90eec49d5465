import Rendezvous.Proofs.Session.Episode.Reports
import Rendezvous.Proofs.Session.Ledger
import Rendezvous.Proofs.Session.Restart.Above

/-!
# Two sessions at rest

A session that is over, or that waits for an address, has no link in use. Links that were opened for
a name that cannot be written may be left from before, and are only there to be closed. Beside such
a session stands one on an unused host, which has no links at all. Whatever happens to both, they do
the same, except that the first closes the links that were left.
-/

namespace Rendezvous

/-- No link is in use and no retry is due, and nobody is known. A lookup may be in flight. -/
structure Session.IsAtRest (s : Session) : Prop where
  phase : s.phase = .disconnected ∨ s.phase = .resolving
  directory : s.directory = .empty
  selfId : s.selfId = Peer.unsetId
  disarmed : s.retry.isArmed = false
  exchange : s.exchange? = none
  idle : s.phase = .disconnected → s.resolver.inFlight = false

/-- A session that is over is at rest. -/
theorem Session.IsOver.isAtRest {s : Session} (h : s.IsOver) : s.IsAtRest :=
  ⟨.inl h.phase, h.directory, h.selfId, h.disarmed, h.exchange, fun _ ↦ h.idle⟩

/-- A session that is over differs from an unused one only in its server, its name and its links. -/
theorem Session.IsOver.eq_unused {s : Session} (h : s.IsOver) (address : Address)
    (clientName : Text.Raw) : { s with address, clientName, command := none, notify := none } =
      ({ retry := { delay := s.retry.delay }, address, clientName } : Session) := by
  obtain ⟨⟨delay, live⟩, p, a, c, i, d, command, notify, ⟨inFlight⟩⟩ := s
  obtain ⟨rfl, rfl, rfl, hdisarmed, rfl, -⟩ := h
  cases Option.isNone_iff_eq_none.1 (Option.isSome_eq_false_iff.1 hdisarmed)
  rfl

/-- Whether a step gives the socket that it is about, if there is one, by its number. -/
def Step.IsNumbered : Step → Prop
  | .socket (.newest _) _ => False
  | _ => True

instance (s : Step) : Decidable s.IsNumbered := by
  unfold Step.IsNumbered
  split <;> infer_instance

/-- Whether a step is a call for a connection that names a server and a client. -/
def Step.Names (config : Config) : Step → Prop
  | .call (.connect server _ name) =>
    (server.getD config.server).isEmpty = false ∧ (name.getD config.clientName).isEmpty = false
  | _ => False

/-! ### What is told and asked, by number -/

/-- Numbers are not heard. -/
theorem heardIn_shift (d : Offset) (log : List (LogEntry Note)) :
    heardIn (log.map (LogEntry.shift d)) = heardIn log := by
  induction log with
  | nil => rfl
  | cons line rest ih =>
    cases line with
    | action a => simpa [heardIn, LogEntry.shift] using ih
    | note n => cases n <;> simpa [heardIn, LogEntry.shift] using ih

/-- The requests of a log whose numbers come later. -/
theorem actions_shift (d : Offset) (log : List (LogEntry Note)) :
    Host.actions (log.map (LogEntry.shift d)) = (Host.actions log).map (Action.shift d) := by
  induction log with
  | nil => rfl
  | cons line rest ih =>
    cases line with
    | action a => simp [LogEntry.shift, ih]
    | note n => cases n <;> simpa [LogEntry.shift] using ih

/-! ### Hosts -/

/-- A host that was in use, and an unused one that grants what the first grants from now on. -/
structure Host.Beside (d : Offset) (h h' : Host Note) : Prop where
  policy : h.policy.since h.moment = h'.policy.since h'.moment
  offset : h.offset = d
  offset' : h'.offset = ⟨0, 0⟩

namespace Host.Beside

variable {d : Offset} {h h' : Host Note}

/-- Both hosts grant the same lookups. -/
theorem resolves (hb : h.Beside d h') :
    h.policy.resolves h.moment = h'.policy.resolves h'.moment := by
  have hnow := congrArg (fun p ↦ Policy.resolves p 0) hb.policy
  simpa only [Policy.since, Nat.zero_add] using hnow

private theorem write (hb : h.Beside d h') {l l' : LogEntry Note} (hl : l.isClosing = false)
    (hl' : l'.isClosing = false) : (h.write l).Beside d (h'.write l') := by
  refine { hb with policy := ?_ }
  have hnext := congrArg (fun p ↦ Policy.since p 1) hb.policy
  simpa only [Policy.since_since, Host.write, Host.moment, List.countP_cons, hl, hl',
    Bool.not_false, if_true, Nat.add_comm 1] using hnext

/-- It is of no account that a socket is closed. -/
theorem close (hb : h.Beside d h') (k : Nat) : (h.close k).Beside d h' := by
  refine ⟨hb.policy, ?_, hb.offset'⟩
  rw [← hb.offset]
  simp [Host.offset, Host.close, Host.setPhase, Host.ask, Host.write]

/-- Both hosts come to grant the same. -/
theorem regrant (hb : h.Beside d h') (s : Step) : (h.regrant s).Beside d (h'.regrant s) :=
  { hb with
    policy := (s.regrant_since _ _).symm.trans
      ((congrArg s.regrant hb.policy).trans (s.regrant_since _ _)) }

end Host.Beside

namespace Machine

open SessionM

/-- Whether a request closes the socket of a link of the session. -/
def drops (m : Machine) : Action → Bool
  | .close k => m.session.command.any (·.socket = k) || m.session.notify.any (·.socket = k)
  | _ => false

/-- What two machines add to their logs: the same events, and the same requests. The numbers in
those of the first come after what there was on the host of an old machine, and the first may also
close the links of the old one. -/
def SameLines (old m n m' n' : Machine) : Prop :=
  ∃ new new', m'.host.log = new ++ m.host.log ∧ n'.host.log = new' ++ n.host.log ∧
    heardIn new = heardIn new' ∧ (Host.actions new).filter (!old.drops ·) =
      (Host.actions new').map (Action.shift old.host.offset)

variable {config : Config} {old m n m' n' m'' n'' : Machine} {known : Prop}

/-- Where neither log grows, they grow by the same. -/
theorem sameLines_of_eq (hlog : m'.host.log = m.host.log) (hlog' : n'.host.log = n.host.log) :
    SameLines old m n m' n' :=
  ⟨[], [], hlog, hlog', rfl, rfl⟩

/-- The same lines after the same lines. -/
theorem SameLines.trans (h : SameLines old m n m' n') (h' : SameLines old m' n' m'' n'') :
    SameLines old m n m'' n'' := by
  obtain ⟨new, new', hlog, hlog', hheard, hasked⟩ := h
  obtain ⟨later, later', hlater, hlater', hheard', hasked'⟩ := h'
  refine ⟨later ++ new, later' ++ new', ?_, ?_, ?_, ?_⟩
  · rw [hlater, hlog, List.append_assoc]
  · rw [hlater', hlog', List.append_assoc]
  · rw [heardIn_append, heardIn_append, hheard, hheard']
  · rw [Host.actions_append, Host.actions_append, List.filter_append, List.map_append, hasked,
      hasked']

/-- The first machine closes a socket of a link of the old one. -/
theorem sameLines_of_close {k : Nat} (hlog : m'.host.log = .action (.close k) :: m.host.log)
    (hk : old.Owns k) : SameLines old m n m' n := by
  refine ⟨[.action (.close k)], [], hlog, rfl, rfl, ?_⟩
  have hdrops : old.drops (.close k) = true := by
    simpa [drops, Owns, Option.any_eq_true] using hk
  simp [Host.actions, hdrops]

/-- A session at rest, which has at most links that an old machine had, and one beside it without
links, on an unused host. Their servers and names are the same if they are `known`. -/
structure Parted (config : Config) (old : Machine) (known : Prop) (m n : Machine) : Prop where
  made : m.config = config
  made' : n.config = config
  observed : m.observed = n.observed
  rest : m.session.IsAtRest
  session : n.session = {
    m.session with
    address := n.session.address
    clientName := n.session.clientName
    command := none
    notify := none }
  named : known ∨ m.session.phase = .resolving →
    m.session.address = n.session.address ∧ m.session.clientName = n.session.clientName
  owned : ∀ k, m.Owns k → old.Owns k
  hosts : m.host.Beside old.host.offset n.host

/-- Two sessions at rest stay side by side, and do the same on the way. -/
structure StaysParted (config : Config) (old : Machine) (known : Prop) (m n m' n' : Machine) :
    Prop where
  lines : SameLines old m n m' n'
  parted : Parted config old known m' n'

private theorem StaysParted.trans (h : StaysParted config old known m n m' n')
    (h' : StaysParted config old known m' n' m'' n'') :
    StaysParted config old known m n m'' n'' :=
  ⟨h.lines.trans h'.lines, h'.parted⟩

namespace Parted

/-- Both are in the same phase. -/
theorem phase (h : Parted config old known m n) : n.session.phase = m.session.phase := by
  rw [h.session]

/-- Both have the same resolver. -/
theorem resolver (h : Parted config old known m n) :
    n.session.resolver = m.session.resolver := by
  rw [h.session]

/-- Where nothing happens both stay as they are. -/
theorem refl (h : Parted config old known m n) : StaysParted config old known m n m n :=
  ⟨sameLines_of_eq rfl rfl, h⟩

/-- The server and the name are replaced by the same ones. -/
theorem remember (h : Parted config old known m n) (address : Address) (clientName : Text.Raw) :
    StaysParted config old True m n { m with session := { m.session with address, clientName } }
      { n with session := { n.session with address, clientName } } where
  lines := sameLines_of_eq rfl rfl
  parted := { h with
    rest := ⟨h.rest.phase, h.rest.directory, h.rest.selfId, h.rest.disarmed, h.rest.exchange,
      h.rest.idle⟩
    session := congrArg (fun s : Session ↦ { s with address, clientName }) h.session
    named := fun _ ↦ ⟨rfl, rfl⟩ }

/-- Both begin to wait for an address. -/
theorem resolving (h : Parted config old True m n) :
    StaysParted config old True m n (m.setPhase .resolving) (n.setPhase .resolving) where
  lines := sameLines_of_eq rfl rfl
  parted := { h with
    rest := ⟨.inr rfl, h.rest.directory, h.rest.selfId, h.rest.disarmed, h.rest.exchange,
      nofun⟩
    session := congrArg (fun s : Session ↦ { s with phase := .resolving }) h.session
    named := fun _ ↦ h.named (.inl trivial) }

/-- Both write down what is no closing. -/
theorem write (h : Parted config old known m n) {l l' : LogEntry Note} (hl : l.isClosing = false)
    (hl' : l'.isClosing = false) : Parted config old known { m with host := m.host.write l }
      { n with host := n.host.write l' } :=
  { h with hosts := h.hosts.write hl hl' }

/-- Both are told of the same event. -/
theorem heard (h : Parted config old known m n) (e : Event) :
    StaysParted config old known m n (m.note (.heard e m.session))
      (n.note (.heard e n.session)) where
  lines := ⟨[_], [_], rfl, rfl, rfl, rfl⟩
  parted := h.write rfl rfl

/-- Both start to look a host up. -/
theorem lookup (h : Parted config old known m n) (hphase : m.session.phase = .resolving)
    (resolver : Resolver) (host : String) (port : Int) : StaysParted config old known m n
      { m with session := { m.session with resolver }, host := m.host.ask (.lookup host port) }
      { n with session := { n.session with resolver }, host := n.host.ask (.lookup host port) }
      where
  lines := ⟨[_], [_], rfl, rfl, rfl, rfl⟩
  parted := { h.write (l := .action (.lookup host port)) rfl rfl with
    rest := ⟨h.rest.phase, h.rest.directory, h.rest.selfId, h.rest.disarmed, h.rest.exchange,
      fun hover ↦ by cases hphase.symm.trans hover⟩
    session := congrArg (fun s : Session ↦ { s with resolver }) h.session }

/-- Both get the address that they waited for. -/
theorem resolved (h : Parted config old known m n) (hphase : m.session.phase = .resolving)
    (ip : String) : StaysParted config old True m n
      { m with session := { m.session with address := { m.session.address with host := ip } } }
      { n with
        session := { n.session with address := { n.session.address with host := ip } } } := by
  obtain ⟨haddress, hname⟩ := h.named (.inr hphase)
  exact {
    lines := sameLines_of_eq rfl rfl
    parted := { h with
      rest := ⟨h.rest.phase, h.rest.directory, h.rest.selfId, h.rest.disarmed, h.rest.exchange,
        h.rest.idle⟩
      session := congrArg
        (fun s : Session ↦ { s with address := { n.session.address with host := ip } }) h.session
      named := fun _ ↦ ⟨congrArg (fun a : Address ↦ { a with host := ip }) haddress, hname⟩ } }

/-- Both lookups are over. -/
theorem lookedUp (h : Parted config old known m n) : StaysParted config old known m n
    { m with session := { m.session with resolver := .idle } }
    { n with session := { n.session with resolver := .idle } } where
  lines := sameLines_of_eq rfl rfl
  parted := { h with
    rest := ⟨h.rest.phase, h.rest.directory, h.rest.selfId, h.rest.disarmed, h.rest.exchange,
      fun _ ↦ rfl⟩
    session := congrArg (fun s : Session ↦ { s with resolver := .idle }) h.session }

/-! ### Tearing down -/

private theorem cancelRetry (h : Parted config old known m n) :
    m.cancelRetry = m ∧ n.cancelRetry = n := by
  refine ⟨m.cancelRetry_of_disarmed h.rest.disarmed, n.cancelRetry_of_disarmed ?_⟩
  rw [h.session]
  exact h.rest.disarmed

private theorem cancelLookup (h : Parted config old known m n) :
    StaysParted config old known m n m.cancelLookup n.cancelLookup := by
  rw [Machine.cancelLookup, Machine.cancelLookup, h.resolver]
  split
  · exact ⟨⟨[_], [_], rfl, rfl, rfl, rfl⟩, h.lookedUp.parted.write rfl rfl⟩
  · exact h.refl

/-- Only the first machine may have a link to close. -/
theorem closeCommand (h : Parted config old known m n) :
    StaysParted config old known m n m.closeCommand n.closeCommand := by
  have hnone : n.closeCommand = n := by
    have hcommand : n.session.command = none := congrArg Session.command h.session
    rw [Machine.closeCommand, hcommand]
  rw [hnone, Machine.closeCommand]
  cases hc : m.session.command with
  | none => exact h.refl
  | some c =>
    exact {
      lines := sameLines_of_close rfl (h.owned _ (.inl ⟨c, hc, rfl⟩))
      parted := { h with
        rest := ⟨h.rest.phase, h.rest.directory, h.rest.selfId, h.rest.disarmed, rfl, h.rest.idle⟩
        owned := fun k hk ↦ h.owned k (by
          rcases hk with ⟨_, hmem, hk⟩ | hk
          · cases hmem
            exact .inl ⟨c, hc, hk⟩
          · exact .inr hk)
        hosts := h.hosts.close c.socket } }

private theorem closeNotify (h : Parted config old known m n) :
    StaysParted config old known m n m.closeNotify n.closeNotify := by
  have hnone : n.closeNotify = n := by
    have hnotify : n.session.notify = none := congrArg Session.notify h.session
    rw [Machine.closeNotify, hnotify]
  rw [hnone, Machine.closeNotify]
  cases hn : m.session.notify with
  | none => exact h.refl
  | some l =>
    exact {
      lines := sameLines_of_close rfl (h.owned _ (.inr ⟨l, hn, rfl⟩))
      parted := { h with
        rest := ⟨h.rest.phase, h.rest.directory, h.rest.selfId, h.rest.disarmed, h.rest.exchange,
          h.rest.idle⟩
        owned := fun k hk ↦ h.owned k (by
          rcases hk with hk | ⟨_, hmem, hk⟩
          · exact .inl hk
          · cases hmem
            exact .inr ⟨l, hn, hk⟩)
        hosts := h.hosts.close l.socket } }

/-- Both keep quiet. -/
theorem quiet (h : Parted config old known m n) :
    StaysParted config old known m n m.quiet n.quiet := by
  obtain ⟨hm, hn⟩ := h.cancelRetry
  rw [Machine.quiet, Machine.quiet, hm, hn]
  exact h.cancelLookup.trans h.cancelLookup.parted.closeNotify

end Parted

/-- The machine once its links are closed and taken away. -/
def dropped (m : Machine) : Machine :=
  let m := m.closeCommand.closeNotify
  { m with session := { m.session with command := none, notify := none } }

/-- A session that loses its links keeps everything else. -/
theorem session_dropped (m : Machine) :
    m.dropped.session = { m.session with command := none, notify := none } := by
  rw [dropped, session_closeNotify, session_closeCommand]

namespace Parted

/-- Both lose their links. -/
theorem dropped (h : Parted config old known m n) :
    StaysParted config old known m n m.dropped n.dropped := by
  have hclosed := h.closeCommand.trans h.closeCommand.parted.closeNotify
  exact hclosed.trans {
    lines := sameLines_of_eq rfl rfl
    parted := { hclosed.parted with
      rest := ⟨hclosed.parted.rest.phase, hclosed.parted.rest.directory,
        hclosed.parted.rest.selfId, hclosed.parted.rest.disarmed, rfl, hclosed.parted.rest.idle⟩
      session := congrArg (fun s : Session ↦ { s with command := none, notify := none })
        hclosed.parted.session
      owned := fun k hk ↦ by rcases hk with ⟨_, hk, -⟩ | ⟨_, hk, -⟩ <;> cases hk } }

/-- Both are torn down. -/
theorem reset (h : Parted config old known m n) :
    StaysParted config old known m n m.reset n.reset := by
  have hdropped := h.cancelLookup.trans h.cancelLookup.parted.dropped
  have hidle : m.cancelLookup.dropped.session.resolver = .idle := by
    rw [session_dropped, session_cancelLookup]
  obtain ⟨hm, hn⟩ := h.cancelRetry
  rw [Machine.reset, Machine.reset, hm, hn]
  exact hdropped.trans {
    lines := sameLines_of_eq rfl rfl
    parted := { hdropped.parted with
      rest := ⟨.inl rfl, rfl, rfl, hdropped.parted.rest.disarmed, rfl,
        fun _ ↦ congrArg Resolver.inFlight hidle⟩
      session := congrArg (fun s : Session ↦ { s with
        phase := .disconnected
        selfId := Peer.unsetId
        directory := .empty }) hdropped.parted.session
      named := fun hknown ↦ hdropped.parted.named (hknown.imp_right fun hset ↦ by cases hset) } }

end Parted

end Machine

end Rendezvous
