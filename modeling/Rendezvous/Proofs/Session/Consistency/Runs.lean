import Rendezvous.Proofs.Session.Consistency.Transitions
import Rendezvous.Session.Step

/-!
# A session is consistent after every step

Whatever happens to a session, as long as sockets have the events only that a working network
reports, and whatever its observer does but refuse to go on, the phase tells after every step which
links there are, what is in flight and what is due. Under a name that is no string, signing in stops
at a fault when the links are there already: a session that is disconnected may then have links that
were never used, and one that is resolving may look up nothing.
-/

namespace Rendezvous

/-- Whether the name that a step gives, if it gives one, is a string. -/
def Step.IsPlain : Step → Prop
  | .call c => c.IsPlain
  | _ => True

instance (s : Step) : Decidable s.IsPlain := by
  cases s <;> unfold Step.IsPlain <;> infer_instance

/-- Whether a step is one that a working network brings about. -/
def Step.IsLawful (m : Machine) : Step → Prop
  | .socket ref event => ∀ k ∈ m.find? ref, (m.host.phaseOf k).Permits event
  | _ => True

instance (m : Machine) (s : Step) : Decidable (s.IsLawful m) := by
  cases s <;> unfold Step.IsLawful <;> infer_instance

namespace Machine

/-- Whether every step of a run is lawful where it is taken. -/
def IsLawful (o : Observer) (depth : Nat) : Machine → List Step → Prop
  | _, [] => True
  | m, s :: rest => s.IsLawful m ∧ IsLawful o depth (m.step o depth s).2 rest

instance decidableIsLawful (o : Observer) (depth : Nat) :
    (m : Machine) → (steps : List Step) → Decidable (m.IsLawful o depth steps)
  | _, [] => .isTrue trivial
  | m, s :: rest =>
    have := decidableIsLawful o depth (m.step o depth s).2 rest
    inferInstanceAs (Decidable (s.IsLawful m ∧ IsLawful o depth (m.step o depth s).2 rest))

/-- The phase of the notify socket. -/
def notifyPhase (m : Machine) : Channel.Phase :=
  m.session.notify.elim .closed fun n ↦ m.host.phaseOf n.socket

/-- What the phase of a session says of the rest of it. Names are `plain` if every one that was
given is a string. -/
def FitsPhase (plain : Prop) (m : Machine) : Prop :=
  match m.session.phase with
  | .disconnected => m.session.IsOver ∧ m.Unlinked plain ∧ ∀ k, m.host.phaseOf k = .closed
  | .resolving => (plain → m.session.resolver.inFlight = true) ∧ m.Unlinked plain ∧
      m.session.retry.isArmed = false
  | .signingIn => m.session.selfId = Peer.unsetId ∧ m.notifyPhase = .closed ∧
      (m.session.retry.isArmed = true ∧ m.session.exchange? = none ∨
        m.session.retry.isArmed = false ∧ m.session.exchange? = some .signIn)
  | .connected => m.session.selfId ≠ Peer.unsetId ∧ m.session.retry.isArmed = false ∧
      (m.session.exchange? = none ∨ m.session.exchange? = some .relay) ∧ m.notifyPhase ≠ .closed
  | .signingOut => m.session.selfId ≠ Peer.unsetId ∧ m.session.retry.isArmed = false ∧
      m.session.exchange? = some .signOut ∧ m.notifyPhase = .closed
  | .signingOutPending => m.session.retry.isArmed = false ∧ m.notifyPhase = .closed ∧
      (m.session.exchange? = some .signIn ∧ m.session.selfId = Peer.unsetId ∨
        m.session.exchange? = some .relay ∧ m.session.selfId ≠ Peer.unsetId)

/-- A session is consistent: everything fits its phase, a session that has found its server has
both links, and only the sockets of links are open. -/
structure IsConsistent (plain : Prop) (m : Machine) : Prop where
  fits : m.FitsPhase plain
  linked : m.session.phase ≠ .disconnected → m.session.phase ≠ .resolving → ∃ c n, m.Linked c n
  owned : ∀ k, m.host.phaseOf k ≠ .closed → m.Owns k

open SessionM

variable {config : Config} {plain : Prop} {m : Machine} {o : Observer} {depth : Nat}

private theorem Linked.exchange? {c : CommandLink} {n : NotifyLink} (h : m.Linked c n) :
    m.session.exchange? = c.exchange := Session.exchange?_of_command h.command

private theorem Linked.notifyPhase {c : CommandLink} {n : NotifyLink} (h : m.Linked c n) :
    m.notifyPhase = m.host.phaseOf n.socket := by
  rw [Machine.notifyPhase, h.notify, Option.elim_some]

private theorem Stands.fitsPhase (h : m.Stands config plain .none) : m.FitsPhase plain := by
  cases h with
  | disconnected _ ended unlinked closed =>
    rw [FitsPhase, ended.phase]
    exact ⟨ended, unlinked, closed⟩
  | resolving _ phase unlinked _ disarmed looking =>
    rw [FitsPhase, phase]
    exact ⟨looking, unlinked, disarmed⟩
  | linked c n _ links _ fits =>
    rw [FitsPhase, links.exchange?, links.notifyPhase]
    cases hphase : m.session.phase with
    | disconnected => exact (hphase ▸ fits).elim
    | resolving => exact (hphase ▸ fits).elim
    | signingIn =>
      obtain ⟨hid, hq, hx⟩ := hphase ▸ fits
      exact ⟨hid, hq, hx⟩
    | connected =>
      obtain ⟨hdisarmed, hid, hx, hq⟩ := hphase ▸ fits
      refine ⟨hid, hdisarmed, hx, ?_⟩
      intro hclosed
      cases hq hclosed
    | signingOut =>
      obtain ⟨hdisarmed, hid, hx, hq⟩ := hphase ▸ fits
      exact ⟨hid, hdisarmed, hx, hq⟩
    | signingOutPending =>
      obtain ⟨hdisarmed, hq, hsignIn | hrelay | hover⟩ := hphase ▸ fits
      · exact ⟨hdisarmed, hq, .inl hsignIn⟩
      · exact ⟨hdisarmed, hq, .inr hrelay⟩
      · cases hover.2

private theorem Stands.isConsistent (h : m.Stands config plain .none) : m.IsConsistent plain where
  fits := h.fitsPhase
  linked hdisconnected hresolving := by
    cases h with
    | disconnected _ ended => exact absurd ended.phase hdisconnected
    | resolving _ phase => exact absurd phase hresolving
    | linked c n _ links => exact ⟨c, n, links⟩
  owned k hopen := by
    by_cases hown : m.Owns k
    · exact hown
    · exact absurd (h.tidy.closed k hown) hopen

/-- Everything fits a session that has done nothing yet. -/
theorem stands_fresh (config : Config) (observed : Bool) (policy : Policy) :
    (fresh config observed policy).Stands config plain .none :=
  .disconnected rfl ⟨rfl, rfl, rfl, rfl, rfl, rfl⟩ (.absent rfl rfl) fun _ ↦ rfl

/-- A lawful step, whatever it is, ends with everything fitting the phase. -/
theorem stands_step {tell : Event → SessionM Unit} (htell : Steady config plain tell)
    (h : m.Stands config plain .none) {s : Step} (hs : s.IsLawful m)
    (hplain : plain → s.IsPlain) :
    Ensures (react tell s) m (fun _ ↦ Stands config plain .none) (Stands config plain .none) := by
  have hgrant (f : Policy → Policy) : (m.grant f).Stands config plain .none :=
    h.congr rfl rfl fun _ ↦ rfl
  cases s with
  | call c =>
    simp only [react, ensures_bind, ensures_pure]
    exact (stands_perform htell h c hplain).mono (fun _ _ ↦ id) fun _ hafter ↦ hafter.1
  | observe =>
    simp only [react, ensures_bind, ensures_get, ensures_ite, ensures_throw, ensures_modify,
      ensures_pure]
    exact ⟨fun _ ↦ h, fun _ ↦ h.congr rfl rfl fun _ ↦ rfl⟩
  | answer ip =>
    simp only [react, ensures_bind, ensures_get, ensures_ite, ensures_pure]
    exact ⟨fun _ ↦ stands_onLookup htell h ip, fun _ ↦ h⟩
  | lateAnswer ip =>
    simp only [react, ensures_bind, ensures_pure]
    exact stands_onAnswer htell h.tidy h.looking (fun _ ↦ h) ip
  | fire timer =>
    simp only [react, ensures_bind, ensures_get, ensures_ite, ensures_pure]
    exact ⟨fun _ ↦ (stands_onTimer htell h timer).of_steady, fun _ ↦ h⟩
  | socket ref event =>
    simp only [react, ensures_bind, ensures_get]
    cases hfound : m.find? ref with
    | none => exact ensures_pure.2 h
    | some k =>
      simp only [ensures_bind, ensures_pure]
      exact (stands_onSocket htell h (hs k hfound)).of_steady
  | accept role granted =>
    simp only [react, ensures_bind, ensures_modify, ensures_pure]
    exact hgrant _
  | sendable role granted =>
    simp only [react, ensures_bind, ensures_modify, ensures_pure]
    exact hgrant _
  | resolvable granted =>
    simp only [react, ensures_bind, ensures_modify, ensures_pure]
    exact hgrant _

/-- After every lawful run everything fits the phase. -/
theorem stands_run (ho : o.IsSteady config) (hplain : plain → o.IsPlain)
    (h : m.Stands config plain .none) {steps : List Step} (hlawful : m.IsLawful o depth steps)
    (hsteps : plain → ∀ s ∈ steps, s.IsPlain) :
    (run o depth m steps).Stands config plain .none := by
  induction steps generalizing m with
  | nil => exact h
  | cons s rest ih =>
    have hstep := stands_step (steady_tell ho hplain depth) h hlawful.1 fun h' ↦
      hsteps h' s List.mem_cons_self
    exact ih hstep.runWith hlawful.2 fun h' ↦ (List.forall_mem_cons.1 (hsteps h')).2

/-- An observer that only listens never refuses. -/
theorem isSteady_silent (config : Config) : Observer.silent.IsSteady config := by
  intro m e _ d hd
  cases hd

/-- A run is lawful in parts. -/
theorem isLawful_append {o : Observer} {first second : List Step} :
    m.IsLawful o depth (first ++ second) ↔
      m.IsLawful o depth first ∧ (run o depth m first).IsLawful o depth second := by
  induction first generalizing m with
  | nil => simp [IsLawful, run]
  | cons s rest ih =>
    rw [List.cons_append, IsLawful, IsLawful, ih, and_assoc]
    rfl

/-- After every step of a lawful run, under every observer that does not refuse to go on, the
session is consistent, with no links while it is disconnected or resolving, and with a lookup in
flight while it is resolving, wherever every name that was given is a string. -/
theorem isConsistent_run (config : Config) (observed : Bool) (policy : Policy) {o : Observer}
    (ho : o.IsSteady config) (depth : Nat) {steps : List Step}
    (hlawful : (fresh config observed policy).IsLawful o depth steps) :
    (run o depth (fresh config observed policy) steps).IsConsistent
      (o.IsPlain ∧ ∀ s ∈ steps, s.IsPlain) :=
  (stands_run ho And.left (stands_fresh config observed policy) hlawful And.right).isConsistent

/-- An observer that asks for a connection again whenever one is lost. -/
def persistent : Observer := fun _ e ↦
  if e = .disconnected then [.attempt (.connect none none none)] else []

/-- A session signs in, hears of a peer, loses the long poll, and is refused when it signs out. -/
def refusedSignOut : List Step := [
  .call (.connect (some "10.0.0.5") none none),
  .socket (.newest .command) .connected,
  .socket (.newest .command) (.received (Bytes.ofAscii
    "HTTP/1.1 200 OK\r\nPragma: 7\r\nContent-Length: 6\r\n\r\na,9,1\n")),
  .socket (.newest .notify) .connected,
  .socket (.newest .notify) (.closed 104),
  .call .signOut,
  .socket (.newest .command) (.closed Channel.refusedCode)]

/-- The observer that connects again leaves the session consistent. -/
theorem isConsistent_run_refusedSignOut :
    persistent.IsSteady (Config.standard "alice") ∧
      (fresh (Config.standard "alice") true {}).IsLawful persistent 3 refusedSignOut ∧
      (run persistent 3 (fresh (Config.standard "alice") true {}) refusedSignOut).IsConsistent
        True := by
  have hdeed (m : Machine) (e : Event) :
      ∀ d ∈ persistent m e, d = .attempt (.connect none none none) := by
    intro d hd
    rw [persistent] at hd
    split at hd
    · exact List.mem_singleton.1 hd
    · cases hd
  have hsteady : persistent.IsSteady (Config.standard "alice") := by
    intro m e _ d hd
    rw [hdeed m e d hd]
    trivial
  have hplain : persistent.IsPlain := by
    intro m e d hd
    rw [hdeed m e d hd]
    intro given hgiven
    cases hgiven
  have hsteps : ∀ s ∈ refusedSignOut, s.IsPlain := by decide
  have hlawful : (fresh (Config.standard "alice") true {}).IsLawful persistent 3
      refusedSignOut := by
    decide +kernel
  have hconsistent := isConsistent_run _ true {} hsteady 3 hlawful
  rw [eq_true (And.intro hplain hsteps)] at hconsistent
  exact ⟨hsteady, hlawful, hconsistent⟩

/-- A name that holds an undecodable byte, as it comes from the command line. -/
def undecodable : Text.Raw := ⟨[.surrogate 0x4FF]⟩

/-- The name is given with an address, and then with a host that has to be looked up. -/
def misnamed : List Step := [
  .call (.connect (some "10.0.0.5") (some 8888) (some undecodable)),
  .call (.connect (some "rendezvous") (some 8888) (some undecodable)),
  .answer (some "10.0.0.5")]

/-- Under a name that is no string, a session is disconnected and has links, and then looks nothing
up while it is resolving. Nothing is reported. -/
theorem inconsistent_misnamed :
    let start := fresh (Config.standard "alice") true {}
    let first := run .silent 0 start (misnamed.take 1)
    let last := run .silent 0 start misnamed
    Observer.silent.IsSteady (Config.standard "alice") ∧ start.IsLawful .silent 0 misnamed ∧
      (first.session.phase = .disconnected ∧ first.session.command.isSome ∧
        ¬ first.IsConsistent True) ∧
      (last.session.phase = .resolving ∧ last.session.resolver.inFlight = false ∧
        ¬ last.IsConsistent True) ∧
      Observer.heard last = [] := by
  intro start first last
  have hfirst : first.session.phase = .disconnected ∧ first.session.command.isSome := by
    decide +kernel
  have hlast : last.session.phase = .resolving ∧ last.session.resolver.inFlight = false := by
    decide +kernel
  have hlawful : start.IsLawful .silent 0 misnamed := by decide +kernel
  refine ⟨isSteady_silent _, hlawful, ⟨hfirst.1, hfirst.2, fun h ↦ ?_⟩,
    ⟨hlast.1, hlast.2, fun h ↦ ?_⟩, by decide +kernel⟩
  · have hfits := h.fits
    rw [FitsPhase, hfirst.1] at hfits
    have hlinks := hfirst.2
    rw [(hfits.2.1.of_plain trivial).1] at hlinks
    cases hlinks
  · have hfits := h.fits
    rw [FitsPhase, hlast.1] at hfits
    cases (hfits.1 trivial).symm.trans hlast.2

end Machine

end Rendezvous
