import Rendezvous.Proofs.Session.Record.Kept

/-!
# Calls keep the record in order

A call dials and closes sockets, and what it has queued is told by the record from there on. It
writes nothing and reports no relay. All this holds whatever the observer does when it is told.
-/

namespace Rendezvous

open Wire

/-- A command link with the request of an exchange queued. -/
def CommandLink.queued (c : CommandLink) (what : Exchange) (bytes : Bytes) : CommandLink :=
  { c with framer := c.framer.reset, pending := some bytes, exchange := some what }

namespace Record

variable {config : Config} {due : Prop} {start m : Machine} {past story : List Entry}
  {c c' : CommandLink} {n : NotifyLink} {host : Host Note}

/-! ### Giving up -/

/-- A host that retains everything shares it. -/
theorem shares_of_retains {m' : Machine} (hconfig : m'.config = m.config)
    (hobserved : m'.observed = m.observed) (hretains : m.host.Retains m'.host) : Shares m m' :=
  ⟨hconfig, hobserved, hretains.roles⟩

/-- What is kept is recorded. -/
theorem At.recorded (h : At start past (Kept config due) m) : At start past (Recorded config) m :=
  h.imp fun _ hkept ↦ hkept.recorded

/-- A line that no rule is about leaves the record kept. -/
theorem At.neutral (h : At start past (Kept config due) m) {l : LogEntry Note}
    (hl : (Entry.line l).IsNeutral) (hnow : ∀ now ∈ (Entry.line l).session?, now = m.session)
    {m' : Machine} (hlog : m'.host.log = l :: m.host.log) (hshares : Shares m m')
    (hphases : ∀ k, m'.host.phaseOf k = m.host.phaseOf k)
    (hsession : Resembles m.session m'.session) : At start past (Kept config due) m' :=
  h.line hlog fun _ hkept ↦ (hkept.neutral hl hnow).congr hshares hphases hsession

private theorem At.note (h : At start past (Kept config due) m) {a : Note}
    (ha : (Entry.line (.note a)).IsNeutral)
    (hnow : ∀ now ∈ (Entry.line (.note a)).session?, now = m.session) :
    At start past (Kept config due) (m.note a) :=
  h.neutral ha hnow rfl ⟨rfl, rfl, rfl⟩ (fun _ ↦ rfl) (.refl _)

private theorem At.cancelRetry_recorded (h : At start past (Recorded config) m) :
    At start past (Recorded config) m.cancelRetry := by
  rw [Machine.cancelRetry]
  split
  · exact h
  · exact h.line rfl fun _ hrecorded ↦ hrecorded.neutral trivial ⟨rfl, rfl, rfl⟩ fun _ ↦ rfl

private theorem At.cancelLookup_recorded (h : At start past (Recorded config) m) :
    At start past (Recorded config) m.cancelLookup := by
  rw [Machine.cancelLookup]
  split
  · exact h.line rfl fun _ hrecorded ↦ hrecorded.neutral trivial ⟨rfl, rfl, rfl⟩ fun _ ↦ rfl
  · exact h

private theorem At.closeCommand_recorded (h : At start past (Recorded config) m) :
    At start past (Recorded config) m.closeCommand := by
  rw [Machine.closeCommand]
  split
  · exact h
  · next c _ =>
    exact h.line rfl fun _ hrecorded ↦ hrecorded.close c.socket
      (shares_of_retains rfl rfl (Host.retains_close _ _)) (Host.phaseOf_close _ _)

private theorem At.closeNotify_recorded (h : At start past (Recorded config) m) :
    At start past (Recorded config) m.closeNotify := by
  rw [Machine.closeNotify]
  split
  · exact h
  · next n _ =>
    exact h.line rfl fun _ hrecorded ↦ hrecorded.close n.socket
      (shares_of_retains rfl rfl (Host.retains_close _ _)) (Host.phaseOf_close _ _)

/-- Tearing down leaves no links to tell of. -/
theorem At.reset (h : At start past (Recorded config) m) :
    At start past (Kept config due) m.reset := by
  have hclosed := h.cancelRetry_recorded.cancelLookup_recorded.closeCommand_recorded
  refine hclosed.closeNotify_recorded.same ?_ fun story hrecorded ↦ ?_
  · rfl
  have hreset := m.isReset_reset
  have hleft : Recorded config story m.reset := hrecorded.congr ⟨rfl, rfl, rfl⟩ fun _ ↦ rfl
  apply hleft.kept hreset.command hreset.notify
  rw [hreset.phase]
  decide

private theorem At.cancelRetry (h : At start past (Kept config due) m) :
    At start past (Kept config due) m.cancelRetry := by
  rw [Machine.cancelRetry]
  split
  · exact h
  · next timer _ =>
    exact h.neutral (l := .action (.cancelTimer timer)) trivial (fun _ hnow ↦ by cases hnow) rfl
      ⟨rfl, rfl, rfl⟩ (fun _ ↦ rfl) ⟨rfl, rfl, rfl, rfl, id, id⟩

private theorem At.cancelLookup (h : At start past (Kept config due) m) :
    At start past (Kept config due) m.cancelLookup := by
  rw [Machine.cancelLookup]
  split
  · exact h.neutral (l := .action .cancelLookup) trivial (fun _ hnow ↦ by cases hnow) rfl
      ⟨rfl, rfl, rfl⟩ (fun _ ↦ rfl) ⟨rfl, rfl, rfl, rfl, id, id⟩
  · exact h

/-- The two links are over different sockets. -/
theorem Kept.apart (h : Kept config due story m) (hc : m.session.command = some c)
    (hn : m.session.notify = some n) : c.socket ≠ n.socket :=
  (h.command c hc).apart (h.notify n hn).role

/-- Closing the notify link leaves nothing read. -/
theorem At.closeNotify (h : At start past (Kept config due) m) :
    At start past (Kept config due) m.closeNotify := by
  rw [Machine.closeNotify]
  cases hn : m.session.notify with
  | none => exact h
  | some n =>
    refine (h.line rfl fun story hkept ↦ ?_ : At start past _ (m.putNotify (n.close m.host)))
    have hclosed : Recorded config (.close n.socket :: story) (m.putNotify (n.close m.host)) :=
      hkept.recorded.close n.socket (shares_of_retains rfl rfl (Host.retains_close _ _))
        (Host.phaseOf_close _ _)
    have hroles : (m.putNotify (n.close m.host)).host.roles = m.host.roles :=
      (Host.retains_close _ _).roles
    refine ⟨hclosed, fun c hc ↦ ?_, fun n' hn' ↦ ?_, fun hdue hphase ↦ ?_, fun hphase ↦ ?_⟩
    · rw [hroles]
      exact ((hkept.command c hc).cons (isAside_close (hkept.apart hc hn).symm story) id
        fun _ hnow ↦ by cases hnow).congr rfl rfl rfl
    · cases hn'
      rw [hroles]
      have hphase : phaseIn n.socket (.close n.socket :: story) = .closed := if_pos rfl
      have hattends := hkept.notify n hn
      exact attends_of_closed (n := n.abort) hattends.role hattends.bound rfl hphase
    · rw [latestId_cons]
      exact hkept.named hdue hphase
    · exact hkept.ended hphase

private theorem At.quiet (h : At start past (Kept config due) m) :
    At start past (Kept config due) m.quiet :=
  h.cancelRetry.cancelLookup.closeNotify

/-! ### Dialling -/

/-- The record of a machine after a use of the command link. -/
theorem Kept.putCommand (h : Kept config due story m) (hc : m.session.command = some c)
    {story' : List Entry} {m' : Machine}
    (hsession : m'.session = { m.session with command := some c' })
    (hrecorded : Recorded config story' m')
    (hserves : Serves m.host.roles (some config.maxResponseSize) story' m'.session c')
    (hnotify : ∀ n ∈ m.session.notify,
      Attends m.host.roles (some config.maxResponseSize) due story' n)
    (hlatest : due → latestId story' = latestId story) (hroles : m'.host.roles = m.host.roles)
    (hidle : m.session.phase = .disconnected → c.exchange = none → c'.exchange = none) :
    Kept config due story' m' where
  recorded := hrecorded
  command _ hc' := by
    rw [hsession] at hc'
    cases hc'
    rw [hroles]
    exact hserves
  notify n hn := by
    rw [hsession] at hn
    rw [hroles]
    exact hnotify n hn
  named hdue hphase := by
    rw [hsession] at hphase ⊢
    exact (hlatest hdue).trans (h.named hdue hphase)
  ended hphase := by
    rw [hsession] at hphase ⊢
    exact hidle hphase ((Session.exchange?_of_command hc).symm.trans (h.ended hphase))

/-- A request that is queued when its socket is dialled is underway, if it is no relay. -/
theorem underway_of_dial {limit : Option Int} {s : Session} {what : Exchange} {bytes : Bytes}
    (hc : s.command = some (c.queued what bytes)) (hother : what ≠ .relay)
    (hrequest : IsRequest bytes none s what) (address : Address) :
    Underway limit (.dial c.socket address :: story) s (c.queued what bytes) what where
  relay := iff_of_false hother (by simp [IsRelayed, Entry.dials, CommandLink.queued])
  unreported := by simp [Entry.dials, CommandLink.queued]
  state := by
    refine .inl ⟨if_pos rfl, ?_, ?_, rfl, bytes, rfl, ?_⟩
    · simp [Entry.dials, CommandLink.queued]
    · simp [Entry.dials, CommandLink.queued]
    · simp only [begun_cons, opener_cons, Entry.dials, CommandLink.queued, decide_true, if_true,
        Option.getD_none]
      exact ⟨⟨_, hc, rfl, rfl, rfl⟩, hrequest⟩

/-- A relay is underway once the call for it is answered. -/
theorem underway_of_call {limit : Option Int} {s : Session} {bytes : Bytes}
    (hc : s.command = some (c.queued .relay bytes)) {call : Call} {peer : Int} {payload : Bytes}
    (hcall : call.relays? = some (peer, payload))
    (hrequest : (Request.message s.selfId peer payload >>= Request.encode) = .ok bytes)
    (address : Address) :
    Underway limit (.called call (some true) :: .dial c.socket address :: story) s
      (c.queued .relay bytes) .relay where
  relay := iff_of_true rfl ⟨.called call (some true), by simp [Entry.dials, CommandLink.queued],
    peer, payload, call, rfl, hcall⟩
  unreported := by simp [Entry.dials, Entry.Reports, CommandLink.queued]
  state := by
    refine .inl ⟨if_pos rfl, ?_, ?_, rfl, bytes, rfl, ?_⟩
    · simp [Entry.dials, Entry.written, CommandLink.queued]
    · simp [Entry.dials, Entry.received, CommandLink.queued]
    · simp only [begun_cons, opener_cons, Entry.dials, Entry.session?, CommandLink.queued,
        decide_true, if_true, Bool.false_eq_true, if_false, Option.or_none, Option.getD_none]
      exact ⟨⟨_, hc, rfl, rfl, rfl⟩, _, rfl, peer, payload, ⟨call, rfl, hcall⟩, hrequest⟩

/-- Dialling the command socket of an idle link, for an exchange that is underway then. -/
theorem Kept.dial (h : Kept config due story m) (hc : m.session.command = some c)
    (c' : CommandLink) (address : Address) (hclosed : m.host.phaseOf c.socket = .closed)
    (hmade : c.socket < m.host.sockets.length) {host : Host Note}
    (hhost : host = (m.host.setPhase c.socket .connecting).ask (.connect c.socket address)) :
    Recorded config (.dial c.socket address :: story) (m.putCommand (c', host)) ∧
      ∀ n ∈ m.session.notify, Attends m.host.roles (some config.maxResponseSize) due
        (.dial c.socket address :: story) n := by
  subst hhost
  have hretains := (m.host.retains_setPhase c.socket .connecting).trans
    (Host.retains_ask _ (.connect c.socket address))
  constructor
  · exact h.recorded.dial address hclosed (shares_of_retains rfl rfl hretains)
      (Host.phaseOf_connecting hmade address)
  · intro n hn
    exact (h.notify n hn).cons (isAside_dial (h.apart hc hn) address story)

end Record

namespace SessionM

open Machine Record

variable {config : Config} {due : Prop} {tell : Event → SessionM Unit} {start m : Machine}
  {past : List Entry} {c : CommandLink} {E : Machine → Prop}

/-- An exchange that is no relay begins, or nothing does. -/
theorem kept_startExchange (h : At start past (Kept config due) m)
    (hgoing : m.session.phase ≠ .disconnected) (hc : m.session.command = some c)
    (hidle : c.exchange = none) {what : Exchange}
    (hother : what ≠ .relay) {bytes : Bytes} (hrequest : IsRequest bytes none m.session what) :
    Ensures (startExchange what bytes) m (fun _ ↦ At start past (Kept config due)) E := by
  have hnotBusy : ¬ c.isBusy = true := by simp [CommandLink.isBusy, hidle]
  rw [ensures_startExchange_of_eq hc, CommandLink.start, if_neg hnotBusy]
  rcases m.host.connect_cases c.socket m.session.address with ⟨hdialled, hclosed, hmade⟩ | hrefused
  · simp only [hdialled]
    refine h.line rfl fun story hkept ↦ ?_
    obtain ⟨hrecorded, hnotify⟩ := hkept.dial hc (c.queued what bytes) m.session.address
      hclosed hmade rfl
    refine hkept.putCommand hc rfl hrecorded ?_ hnotify (fun _ ↦ rfl) ?_ (absurd · hgoing)
    · have hserves := hkept.command c hc
      refine ⟨hserves.role, hserves.bound, fun _ hwhat ↦ ?_⟩
      cases hwhat
      refine underway_of_dial ?_ hother ?_ _
      · rfl
      · cases what <;> exact hrequest
    · exact (m.host.retains_setPhase c.socket .connecting).roles
  · simp only [hrefused]
    refine h.same rfl fun story hkept ↦ ?_
    refine hkept.putCommand hc rfl ?_ ?_ hkept.notify (fun _ ↦ rfl) rfl (absurd · hgoing)
    · exact hkept.recorded.congr ⟨rfl, rfl, rfl⟩ fun _ ↦ rfl
    · have hserves := hkept.command c hc
      exact ⟨hserves.role, hserves.bound, fun _ hwhat ↦ by cases hwhat⟩

/-- A relay begins, and is underway once the call for it is answered, or nothing begins. -/
theorem kept_startRelay (h : At start past (Kept config due) m)
    (hgoing : m.session.phase ≠ .disconnected) (hc : m.session.command = some c)
    (hidle : c.exchange = none) {call : Call} {peer : Int} {payload bytes : Bytes}
    (hcall : call.relays? = some (peer, payload))
    (hrequest : (Request.message m.session.selfId peer payload >>= Request.encode) = .ok bytes) :
    Ensures (startExchange .relay bytes) m (fun sent after ↦
      (sent = true → At start past (Kept config due) (after.note (.called call (some true)))) ∧
      (sent = false → At start past (Kept config due) after)) E := by
  have hnotBusy : ¬ c.isBusy = true := by simp [CommandLink.isBusy, hidle]
  rw [ensures_startExchange_of_eq hc, CommandLink.start, if_neg hnotBusy]
  rcases m.host.connect_cases c.socket m.session.address with ⟨hdialled, hclosed, hmade⟩ | hrefused
  · simp only [hdialled]
    refine ⟨fun _ ↦ ?_, by simp⟩
    have hdial : At start past (fun dialled after ↦ ∃ story,
        dialled = .dial c.socket m.session.address :: story ∧ Kept config due story m ∧
        Recorded config dialled after ∧ ∀ n ∈ m.session.notify,
          Attends m.host.roles (some config.maxResponseSize) due dialled n) (m.putCommand _) :=
      h.line rfl fun story hkept ↦ ⟨story, rfl, hkept, hkept.dial hc (c.queued .relay bytes)
        m.session.address hclosed hmade rfl⟩
    refine hdial.line rfl ?_
    rintro _ ⟨story, rfl, hkept, hrecorded, hnotify⟩
    refine hkept.putCommand hc rfl ?_ ?_ ?_ (fun _ ↦ rfl) ?_ (absurd · hgoing)
    · exact hrecorded.called call (some true) ⟨rfl, rfl, rfl⟩ fun _ ↦ rfl
    · have hserves := hkept.command c hc
      refine ⟨hserves.role, hserves.bound, fun _ hwhat ↦ ?_⟩
      cases hwhat
      refine underway_of_call ?_ hcall ?_ _
      · rfl
      · exact hrequest
    · intro n hn
      apply (hnotify n hn).cons
      apply isAside_granted
      simp [Entry.dials, hkept.apart hc hn]
    · exact (m.host.retains_setPhase c.socket .connecting).roles
  · simp only [hrefused]
    refine ⟨by simp, fun _ ↦ h.same rfl fun story hkept ↦ ?_⟩
    refine hkept.putCommand hc rfl ?_ ?_ hkept.notify (fun _ ↦ rfl) rfl (absurd · hgoing)
    · exact hkept.recorded.congr ⟨rfl, rfl, rfl⟩ fun _ ↦ rfl
    · have hserves := hkept.command c hc
      exact ⟨hserves.role, hserves.bound, fun _ hwhat ↦ by cases hwhat⟩

/-- A way of telling the observer that keeps the record in order. -/
def Tells (config : Config) (tell : Event → SessionM Unit) : Prop :=
  ∀ start past due e m, At start past (Kept config due) (m.note (.heard e m.session)) →
    Ensures (tell e) m (fun _ ↦ At start past (Kept config due)) (At start past (Kept config due))

/-- Whatever the observer is told but the end of a relay. -/
theorem kept_tell (htell : Tells config tell) (h : At start past (Kept config due) m) {e : Event}
    (he : ∀ status, e ≠ .messageSent status) :
    Ensures (tell e) m (fun _ ↦ At start past (Kept config due))
      (At start past (Kept config due)) := by
  apply htell
  apply h.note
  · cases e with
    | messageSent status => exact (he status rfl).elim
    | _ => trivial
  · rintro now hnow
    cases hnow
    rfl

/-- A session that fails keeps the record. -/
theorem kept_fail (htell : Tells config tell) (h : At start past (Recorded config) m) :
    Ensures (fail tell) m (fun _ ↦ At start past (Kept config due))
      (At start past (Kept config due)) := by
  rw [fail, ensures_bind, ensures_modify]
  exact kept_tell htell h.reset (by simp)

/-- A session that does not reach its server keeps the record. -/
theorem kept_failToConnect (htell : Tells config tell) (h : At start past (Recorded config) m) :
    Ensures (failToConnect tell) m (fun _ ↦ At start past (Kept config due))
      (At start past (Kept config due)) := by
  rw [failToConnect, ensures_bind, ensures_modify]
  exact kept_tell htell h.reset (by simp)

/-- Fresh links have nothing to tell of. -/
theorem kept_openLinks (h : At start past (Recorded config) m) {p : Session.Phase}
    (hp : p ≠ .connected) : At start past (Kept config due) (m.openLinks.setPhase p) := by
  have hmade : m.config = config := h.holds.made
  have hclosed := h.closeCommand_recorded.closeNotify_recorded
  refine hclosed.same ?_ fun story hrecorded ↦ ?_
  · rfl
  have hsession := m.session_openLinks
  have hroles := m.roles_openLinks
  have hlength := Host.length_roles m.host
  have hphases (k : Nat) : m.openLinks.host.phaseOf k =
      m.closeCommand.closeNotify.host.phaseOf k := by
    simp [Machine.openLinks]
  have hfresh (k : Nat) (hk : m.host.sockets.length ≤ k) : phaseIn k story = .closed := by
    rw [hrecorded.phases]
    apply Host.phaseOf_eq_closed_of_le
    rwa [m.retains_closeLinks.length]
  have hopened : Recorded config story (m.openLinks.setPhase p) := by
    apply hrecorded.extend
    · exact m.config_openLinks.trans (by simp)
    · exact m.observed_openLinks.trans (by simp)
    · show _ <+: m.openLinks.host.roles
      rw [hroles, m.retains_closeLinks.roles]
      exact List.prefix_append _ _
    · exact hphases
  refine ⟨hopened, fun c hc ↦ ?_, fun n hn ↦ ?_, fun _ hphase ↦ absurd hphase hp, fun _ ↦ ?_⟩
  · have hc : m.openLinks.session.command = some c := hc
    rw [hsession] at hc
    cases hc
    refine ⟨?_, congrArg (some ·.maxResponseSize) hmade, fun _ hwhat ↦ by cases hwhat⟩
    show m.openLinks.host.roles[m.host.sockets.length]? = _
    rw [hroles, ← hlength]
    simp
  · have hn : m.openLinks.session.notify = some n := hn
    rw [hsession] at hn
    cases hn
    refine attends_of_closed ?_ (congrArg (some ·.maxResponseSize) hmade) rfl ?_
    · show m.openLinks.host.roles[m.host.sockets.length + 1]? = _
      rw [hroles, ← hlength]
      simp
    · exact hfresh _ (Nat.le_succ _)
  · show m.openLinks.session.exchange? = none
    rw [hsession]
    rfl

/-! ### Calls -/

/-- Dialling keeps the record. -/
theorem kept_dial (htell : Tells config tell) (h : At start past (Recorded config) m)
    (hphase : m.session.phase ≠ .connected) :
    Ensures (dial tell) m (fun _ ↦ At start past (Kept config due))
      (At start past (Kept config due)) := by
  have hopened : At start past (Kept config due) (m.openLinks.setPhase .signingIn) :=
    kept_openLinks h (by decide)
  obtain ⟨c, hc⟩ : ∃ c, m.openLinks.session.command = some c :=
    ⟨_, congrArg Session.command m.session_openLinks⟩
  have hidle : c.exchange = none := by
    rw [m.session_openLinks] at hc
    cases hc
    rfl
  simp only [dial, ensures_bind, ensures_modify, ensures_get, ensures_ofRequest,
    ensures_startExchange_of_eq hc, ensures_ite, ensures_enter, ensures_pure]
  constructor
  · intro request hrequest
    have hstarted : Ensures (startExchange .signIn request) (m.openLinks.setPhase .signingIn)
        (fun _ ↦ At start past (Kept config due)) (At start past (Kept config due)) :=
      kept_startExchange hopened Session.Phase.noConfusion hc hidle (by decide) hrequest
    rw [ensures_startExchange_of_eq (by exact hc)] at hstarted
    refine ⟨fun _ ↦ hstarted, fun _ ↦ ?_⟩
    apply kept_failToConnect htell
    exact hstarted.recorded.same rfl fun _ hrecorded ↦ hrecorded.congr ⟨rfl, rfl, rfl⟩ fun _ ↦ rfl
  · intro _ _
    exact kept_openLinks h (p := m.openLinks.session.phase) (m.phase_openLinks ▸ hphase)

/-- Where no lookup can be made, the session is torn down. -/
theorem kept_startLookup (htell : Tells config tell) (h : At start past (Kept config due) m)
    (host : String) (port : Int) :
    Ensures (startLookup host port) (m.setPhase .resolving)
      (fun started after ↦ (started = true → At start past (Kept config due) after) ∧
        (¬ started = true → Ensures (failToConnect tell) after
          (fun _ ↦ At start past (Kept config due)) (At start past (Kept config due)))) E := by
  rw [ensures_startLookup]
  constructor
  · intro _
    refine ⟨by simp, fun _ ↦ kept_failToConnect htell ?_⟩
    exact h.recorded.same rfl fun _ hrecorded ↦ hrecorded.congr ⟨rfl, rfl, rfl⟩ fun _ ↦ rfl
  · intro resolver _
    refine ⟨fun _ ↦ h.neutral (l := .action (.lookup host port)) trivial
      (fun _ hnow ↦ (by cases hnow)) rfl ⟨rfl, rfl, rfl⟩ (fun _ ↦ rfl) ?_, by simp⟩
    exact ⟨rfl, rfl, rfl, rfl, fun hphase ↦ (by cases hphase), fun hphase ↦ (by cases hphase)⟩

private theorem kept_connect (htell : Tells config tell) (h : At start past (Kept config due) m)
    (server : Option String) (port : Option Int) (name : Option Text.Raw) :
    Ensures (connect tell server port name) m (fun _ ↦ At start past (Kept config due))
      (At start past (Kept config due)) := by
  simp only [connect, ensures_bind, ensures_get, ensures_ite, ensures_pure, ensures_remember,
    ensures_requireText, ensures_enter]
  refine ⟨fun _ ↦ kept_tell htell h (by simp), fun hfree ↦ ?_⟩
  have hphase : m.session.phase = .disconnected := by
    simp only [ne_eq, Bool.or_eq_true, decide_eq_true_eq, not_or, Decidable.not_not] at hfree
    exact hfree.1.1
  have hother : m.session.phase ≠ .connected := by
    rw [hphase]
    decide
  have hnamed (address : Address) (clientName : Text.Raw) : At start past (Kept config due)
      { m with session := { m.session with address, clientName } } :=
    h.same rfl fun story hkept ↦ hkept.idle ⟨rfl, rfl, rfl⟩ (fun _ ↦ rfl) rfl rfl
      (hkept.ended hphase) fun _ ↦ hother
  refine ⟨fun _ ↦ ⟨fun _ ↦ ?_, fun _ ↦ kept_dial htell (hnamed _ _).recorded hother⟩,
    fun _ ↦ hnamed _ _⟩
  exact kept_startLookup htell (hnamed _ _) _ _

private theorem kept_sendTo (htell : Tells config tell) (h : At start past (Kept config due) m)
    {call : Call} {peer : Int} {payload : Except RequestError Bytes}
    (hcall : ∀ body, payload = .ok body → call.relays? = some (peer, body)) :
    Ensures (sendTo tell peer payload) m
      (fun answer after ↦ At start past (Kept config due) (after.note (.called call (some answer))))
      (At start past (Kept config due)) := by
  have hrefuse {after : Machine} (h : At start past (Kept config due) after) :
      At start past (Kept config due) (after.note (.called call (some false))) :=
    h.note (fun heq ↦ by cases heq) fun _ hnow ↦ by cases hnow
  simp only [sendTo, ensures_bind, ensures_get, ensures_ite, ensures_pure, ensures_requireText,
    ensures_ofRequest]
  refine ⟨fun _ ↦ hrefuse h, fun hconnected ↦ ⟨fun _ ↦ ⟨fun _ ↦ hrefuse h, fun _ ↦ h⟩, fun hfree ↦
    ⟨fun bytes hbytes ↦ ?_, fun _ _ ↦ h⟩⟩⟩
  have hgoing : m.session.phase ≠ .disconnected := by
    rw [Decidable.not_not.1 hconnected]
    decide
  obtain ⟨body, hbody, hwritten⟩ := Request.exists_of_bind_eq_ok hbytes
  cases hc : m.session.command with
  | none =>
    rw [ensures_startExchange, hc]
    refine ⟨fun _ ↦ ⟨by simp, fun _ ↦ ?_⟩, by simp⟩
    exact (kept_fail htell h.recorded).mono (fun _ _ ↦ hrefuse) fun _ ↦ id
  | some c =>
    have hidle : c.exchange = none := by
      simp only [hc, Option.any_some, Bool.or_eq_true, not_or, CommandLink.isBusy,
        Option.isSome_iff_ne_none, ne_eq, Decidable.not_not] at hfree
      exact hfree.2
    apply (kept_startRelay h hgoing hc hidle (hcall body hbody) hwritten).mono _ fun _ ↦ id
    intro sent after hafter
    refine ⟨fun hsent ↦ hafter.1 hsent, fun hrefused ↦ ?_⟩
    have hkept := hafter.2 (by simpa using hrefused)
    exact (kept_fail htell hkept.recorded).mono (fun _ _ ↦ hrefuse) fun _ ↦ id

/-- Signing out keeps the record. -/
theorem kept_signOut (htell : Tells config tell) (h : At start past (Kept config due) m) :
    Ensures (signOut tell) m (fun _ ↦ At start past (Kept config due))
      (At start past (Kept config due)) := by
  have hquiet := h.quiet
  have hphase {p : Session.Phase} (hconnected : p ≠ .connected) (hended : p ≠ .disconnected) :
      At start past (Kept config due) (m.quiet.setPhase p) := by
    refine hquiet.same rfl fun story hkept ↦ hkept.congr ⟨rfl, rfl, rfl⟩ (fun _ ↦ rfl) ?_
    exact ⟨rfl, rfl, rfl, rfl, fun heq ↦ absurd heq hconnected, fun heq ↦ absurd heq hended⟩
  simp only [signOut, ensures_bind, ensures_phase, ensures_ite, ensures_pure, ensures_modify,
    ensures_get, ensures_enter, ensures_ofRequest, quiet_eq]
  refine ⟨fun _ ↦ h, fun _ ↦ ⟨fun _ ↦ hphase (by decide) (by decide), fun hfree ↦
    ⟨fun _ ↦ kept_fail htell hquiet.recorded, fun _ ↦ ⟨fun bytes hbytes ↦ ?_, fun _ _ ↦
      hphase (by decide) (by decide)⟩⟩⟩⟩
  have hleft : At start past (Kept config due) (m.quiet.setPhase .signingOut) :=
    hphase (by decide) (by decide)
  cases hc : m.quiet.session.command with
  | none =>
    rw [ensures_startExchange]
    refine ⟨fun _ ↦ ⟨by simp, fun _ ↦ kept_fail htell hleft.recorded⟩, fun c hc' ↦ ?_⟩
    cases hc.symm.trans hc'
  | some c =>
    have hidle : c.exchange = none := by
      simpa [hc, CommandLink.isBusy] using hfree
    have hrequest : IsRequest bytes none (m.quiet.setPhase .signingOut).session .signOut := hbytes
    apply (kept_startExchange hleft Session.Phase.noConfusion hc hidle (by decide)
      hrequest).mono _ fun _ ↦ id
    exact fun _ _ hafter ↦ ⟨fun _ ↦ hafter, fun _ ↦ kept_fail htell hafter.recorded⟩

/-- A call with its answer, where it comes to one. -/
theorem kept_perform (htell : Tells config tell) (h : At start past (Kept config due) m)
    (call : Call) :
    Ensures (perform tell call) m
      (fun answer after ↦ At start past (Kept config due) (after.note (.called call answer)))
      (At start past (Kept config due)) := by
  have hnote {after : Machine} (answer : Option Bool) (hcall : call.relays? = none)
      (h : At start past (Kept config due) after) :
      At start past (Kept config due) (after.note (.called call answer)) :=
    h.note (fun _ ↦ hcall) fun _ hnow ↦ by cases hnow
  cases call with
  | connect server port name =>
    rw [perform, ensures_map]
    exact (kept_connect htell h server port name).mono (fun _ _ ↦ hnote _ rfl) fun _ ↦ id
  | send peer text =>
    rw [perform, ensures_map]
    refine kept_sendTo htell h fun body hbody ↦ ?_
    rw [Call.relays?, hbody]
    rfl
  | sendBytes peer payload =>
    rw [perform, ensures_map]
    exact kept_sendTo htell h fun _ hbody ↦ by
      cases hbody
      rfl
  | hangUp peer =>
    rw [perform, ensures_map]
    exact kept_sendTo htell h fun _ hbody ↦ by
      cases hbody
      rfl
  | signOut =>
    rw [perform, ensures_map]
    exact (kept_signOut htell h).mono (fun _ _ ↦ hnote _ rfl) fun _ ↦ id
  | close =>
    simp only [perform, ensures_bind, ensures_modify, ensures_pure]
    exact hnote _ rfl h.recorded.reset

/-! ### Observers -/

/-- The induction is on the deeds still to be done. -/
theorem kept_carryOut (htell : Tells config tell) (h : At start past (Kept config due) m)
    (deeds : List Deed) :
    Ensures (Observer.carryOut tell deeds) m (fun _ ↦ At start past (Kept config due))
      (At start past (Kept config due)) := by
  induction deeds generalizing m with
  | nil => exact ensures_pure.2 h
  | cons deed rest ih =>
    have hgo (call : Call) (answer : Option Bool) (after : Machine)
        (hafter : At start past (Kept config due) (after.note (.called call answer))) :
        Ensures (do modify (·.note (.called call answer)); Observer.carryOut tell rest) after
          (fun _ ↦ At start past (Kept config due)) (At start past (Kept config due)) := by
      rw [ensures_bind, ensures_modify]
      exact ih hafter
    cases deed with
    | refuse => exact ensures_throw.2 h
    | call call =>
      rw [Observer.carryOut, ensures_bind]
      exact (kept_perform htell h call).mono (fun answer ↦ hgo call answer) fun _ ↦ id
    | attempt call =>
      rw [Observer.carryOut, ensures_bind, ensures_tryCatch]
      apply (kept_perform htell h call).mono fun answer ↦ hgo call answer
      intro after hafter
      apply ensures_pure.2
      apply hgo
      exact hafter.note (fun heq ↦ by cases heq) fun _ hnow ↦ by cases hnow

/-- Whatever the observer does when it is told, the record is in order. -/
theorem tells_tell (config : Config) (o : Observer) (depth : Nat) :
    Tells config (o.tell depth) := by
  induction depth with
  | zero =>
    intro start past due e m h
    have hobserved : m.observed = true := h.holds.observed
    simp only [Observer.tell, ensures_bind, ensures_get, ensures_ite, ensures_set, ensures_pure]
    exact ⟨fun _ ↦ h, fun hnot ↦ absurd hobserved hnot⟩
  | succ depth ih =>
    intro start past due e m h
    have hobserved : m.observed = true := h.holds.observed
    simp only [Observer.tell, ensures_bind, ensures_get, ensures_ite, ensures_set, ensures_pure]
    exact ⟨fun _ ↦ kept_carryOut ih h _, fun hnot ↦ absurd hobserved hnot⟩

end SessionM

end Rendezvous
