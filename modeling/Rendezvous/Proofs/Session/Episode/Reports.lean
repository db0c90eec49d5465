import Rendezvous.Proofs.Session.Episode.Words
import Rendezvous.Proofs.Session.Consistency.Calls

/-!
# What each part of a session reports

What an observer that only listens hears of each part of a session, and the phase that the part
leaves: together they move the monitor of the episode from the stage that the session is at to the
stage that it is at afterwards.
-/

namespace Rendezvous

/-- The events of a log, newest line first, in the order in which they were heard. -/
def heardIn (log : List (LogEntry Note)) : List Event :=
  (Host.notes log).filterMap fun
    | .heard event _ => some event
    | .called _ _ => none

/-- What was logged earlier is heard first. -/
theorem heardIn_append (later earlier : List (LogEntry Note)) :
    heardIn (later ++ earlier) = heardIn earlier ++ heardIn later := by
  simp [heardIn, Host.notes]

/-- Requests are not heard. -/
theorem heardIn_actions (asked : List Action) : heardIn (asked.map .action) = [] := by
  induction asked with
  | nil => rfl
  | cons a rest ih =>
    rw [List.map_cons, heardIn, Host.notes_cons_action]
    exact ih

/-- What is heard of signing in: the peers that are listed, and then that it is complete. -/
def announced (listed : List Peer.Entry) : List Event :=
  listed.map (fun entry ↦ .peerConnected entry.id entry.name) ++ [.signedIn]

private theorem Stage.run_listing_announced (listed : List Peer.Entry) :
    Stage.listing.run (announced listed) = some .established := by
  induction listed with
  | nil => rfl
  | cons entry rest ih =>
    rw [announced, List.map_cons, List.cons_append, Stage.run_cons]
    exact ih

private theorem Stage.run_opening_announced (listed : List Peer.Entry) :
    Stage.opening.run (announced listed) = some .established := by
  cases listed with
  | nil => rfl
  | cons entry rest =>
    rw [announced, List.map_cons, List.cons_append, Stage.run_cons]
    exact run_listing_announced rest

/-- A session that is over. There are no links, or, where names need not be plain, links that were
never used. -/
structure Session.IsIdle (plain : Prop) (s : Session) : Prop extends s.IsOver where
  absent : plain → s.command = none ∧ s.notify = none

/-- A session that is over is idle under another name and for another server. -/
theorem Session.IsIdle.named {plain : Prop} {s : Session} (h : s.IsIdle plain) (address : Address)
    (clientName : Text.Raw) : Session.IsIdle plain { s with address, clientName } :=
  ⟨h.toIsOver.named address clientName, h.absent⟩

/-- Where a session is in an episode. Before signing in is complete its name may still be written,
and is a string where names are plain. -/
def Session.IsAt (plain : Prop) (s : Session) : Stage → Prop
  | .idle => s.IsIdle plain
  | .opening => s.phase ≠ .disconnected ∧ s.phase ≠ .connected ∧ s.exchange? ≠ some .relay ∧
      (plain → s.clientName.string?.isSome)
  | .listing => False
  | .established => s.phase = .connected ∨ s.phase = .signingOut ∨ s.phase = .signingOutPending

variable {plain : Prop}

/-- Within an episode, the phase, the name and the exchange in flight tell the stage. -/
theorem Session.IsAt.congr {s s' : Session} {st : Stage} (h : s.IsAt plain st)
    (hphase : s'.phase = s.phase) (hname : s'.clientName = s.clientName)
    (hx : s'.exchange? = s.exchange? ∨ s'.exchange? = none)
    (hidle : s.IsIdle plain → s'.IsIdle plain) : s'.IsAt plain st := by
  cases st with
  | idle => exact hidle h
  | opening =>
    rw [IsAt, hphase, hname]
    refine ⟨h.1, h.2.1, ?_, h.2.2.2⟩
    rcases hx with hx | hx
    · rw [hx]
      exact h.2.2.1
    · rw [hx]
      decide
  | listing => exact h
  | established =>
    rw [IsAt, hphase]
    exact h

/-- Between steps no session is amid a listing. -/
theorem Session.IsAt.ne_listing {s : Session} {st : Stage} (h : s.IsAt plain st) :
    st ≠ .listing := by
  rintro rfl
  exact h

/-- No episode is under way just where the session is disconnected. -/
theorem Session.IsAt.eq_idle_iff {s : Session} {st : Stage} (h : s.IsAt plain st) :
    st = .idle ↔ s.phase = .disconnected := by
  cases st with
  | idle => exact iff_of_true rfl h.phase
  | opening => exact iff_of_false (by decide) h.1
  | listing => exact h.elim
  | established =>
    apply iff_of_false (by decide)
    intro hphase
    rcases h with h | h | h <;> cases hphase.symm.trans h

/-- A connected session is established. -/
theorem Session.IsAt.eq_established {s : Session} {st : Stage} (h : s.IsAt plain st)
    (hphase : s.phase = .connected) : st = .established := by
  cases st with
  | idle => cases hphase.symm.trans h.phase
  | opening => exact absurd hphase h.2.1
  | listing => exact h.elim
  | established => rfl

/-- A session that looks for its server or signs in has reported nothing yet. -/
theorem Session.IsAt.eq_opening {s : Session} {st : Stage} (h : s.IsAt plain st)
    (hphase : s.phase = .resolving ∨ s.phase = .signingIn) : st = .opening := by
  cases st with
  | idle => rcases hphase with hphase | hphase <;> cases hphase.symm.trans h.phase
  | opening => rfl
  | listing => exact h.elim
  | established =>
    rcases h with h | h | h <;> rcases hphase with hphase | hphase <;> cases hphase.symm.trans h

/-- Neither a lookup nor a retry that is over tells of the stage. -/
theorem Session.IsAt.rest {s : Session} {st : Stage} (h : s.IsAt plain st) :
    Session.IsAt plain { s with resolver := .idle } st ∧
      Session.IsAt plain { s with retry := s.retry.cancel } st := by
  cases st with
  | idle =>
    obtain ⟨hover, habsent⟩ := h
    constructor
    · exact ⟨⟨hover.phase, hover.directory, hover.selfId, hover.disarmed, rfl, hover.exchange⟩,
        habsent⟩
    · exact ⟨⟨hover.phase, hover.directory, hover.selfId, rfl, hover.idle, hover.exchange⟩,
        habsent⟩
  | opening => exact ⟨h, h⟩
  | listing => exact ⟨h, h⟩
  | established => exact ⟨h, h⟩

/-- Only an established session relays. -/
theorem Session.IsAt.eq_established_of_relay {s : Session} {st : Stage} (h : s.IsAt plain st)
    (hx : s.exchange? = some .relay) : st = .established := by
  cases st with
  | idle => cases hx.symm.trans h.exchange
  | opening => exact absurd hx h.2.2.1
  | listing => exact h.elim
  | established => rfl

/-- Within an episode, the session may end. -/
theorem Session.IsAt.after_disconnected {s : Session} {st : Stage} (h : s.IsAt plain st)
    (hbusy : s.phase ≠ .disconnected) : st.after .disconnected = some .idle := by
  cases st with
  | idle => exact absurd h.phase hbusy
  | opening => rfl
  | listing => exact h.elim
  | established => rfl

/-- A session that is torn down is in no episode. -/
theorem Session.IsReset.isAt {s : Session} (h : s.IsReset) : s.IsAt plain .idle :=
  ⟨h.toIsOver, fun _ ↦ ⟨h.command, h.notify⟩⟩

/-- Leaving stays at the stage. -/
theorem Session.IsAt.leave {s s' : Session} {st : Stage} (h : s.IsAt plain st)
    (hbusy : s.phase ≠ .disconnected)
    (hphase : s'.phase = .signingOut ∨ s'.phase = .signingOutPending)
    (hname : s'.clientName = s.clientName)
    (hx : s'.exchange? = s.exchange? ∨ s'.exchange? ≠ some .relay) : s'.IsAt plain st := by
  cases st with
  | idle => exact absurd h.phase hbusy
  | opening =>
    refine ⟨?_, ?_, ?_, hname ▸ h.2.2.2⟩
    · rcases hphase with hphase | hphase <;> rw [hphase] <;> decide
    · rcases hphase with hphase | hphase <;> rw [hphase] <;> decide
    · rcases hx with hx | hx
      · rw [hx]
        exact h.2.2.1
      · exact hx
  | listing => exact h.elim
  | established => exact .inr hphase

namespace Machine

/-- Just these events were heard, in this order. -/
structure Adds (before : Machine) (heard : List Event) (after : Machine) : Prop where
  observed : after.observed = before.observed
  log : ∃ new, after.host.log = new ++ before.host.log ∧ heardIn new = heard

/-- What was heard moves the monitor from a stage to one that the session is at. -/
def Moves (plain : Prop) (before : Machine) (st : Stage) (after : Machine) : Prop :=
  ∃ heard next, before.Adds heard after ∧ st.run heard = some next ∧ after.session.IsAt plain next

variable {m m' m'' : Machine} {st next : Stage} {heard heard' : List Event}

/-- Requests are not heard. -/
theorem Adds.of_asks (hasks : m.host.Asks m'.host) (hobserved : m'.observed = m.observed) :
    m.Adds [] m' := by
  obtain ⟨asked, hlog⟩ := hasks
  exact ⟨hobserved, _, hlog, heardIn_actions asked⟩

/-- Where nothing happens nothing is heard. -/
theorem Adds.refl (m : Machine) : m.Adds [] m := .of_asks (.refl _) rfl

/-- What is heard one after another is heard together. -/
theorem Adds.trans (h : m.Adds heard m') (h' : m'.Adds heard' m'') :
    m.Adds (heard ++ heard') m'' := by
  obtain ⟨hobserved, new, hlog, rfl⟩ := h
  obtain ⟨hobserved', new', hlog', rfl⟩ := h'
  refine ⟨hobserved'.trans hobserved, new' ++ new, ?_, heardIn_append _ _⟩
  rw [hlog', hlog, List.append_assoc]

/-- Requests before what is heard do not matter. -/
theorem Adds.after_asks (h' : m'.Adds heard m'') (h : m.Adds [] m') : m.Adds heard m'' :=
  h.trans h'

/-- What a session remembers is not heard. -/
theorem adds_session (m : Machine) (s : Session) : m.Adds [] { m with session := s } :=
  .of_asks (.refl _) rfl

/-- A note of an event is heard. -/
theorem adds_note (m : Machine) (e : Event) (s : Session) : m.Adds [e] (m.note (.heard e s)) :=
  ⟨rfl, [.note (.heard e s)], rfl, rfl⟩

/-- Where nothing is heard the monitor stays. -/
theorem Moves.refl (h : m.session.IsAt plain st) : m.Moves plain st m :=
  ⟨[], st, .refl m, rfl, h⟩

/-- What is heard moves the monitor where the session is. -/
theorem Adds.moves (h : m.Adds heard m') (hrun : st.run heard = some next)
    (hat : m'.session.IsAt plain next) : m.Moves plain st m' := ⟨heard, next, h, hrun, hat⟩

private theorem Moves.after (h' : m'.Moves plain next m'') (h : m.Adds heard m')
    (hrun : st.run heard = some next) : m.Moves plain st m'' := by
  obtain ⟨heard', next', hadds, hrun', hat⟩ := h'
  refine ⟨heard ++ heard', next', h.trans hadds, ?_, hat⟩
  rw [Stage.run_append, hrun]
  exact hrun'

/-- Fresh links under a name that is no string are at the stage of the old ones. -/
theorem isAt_openLinks (hspoilt : ¬ plain) (hat : m.session.IsAt plain st) :
    m.openLinks.session.IsAt plain st := by
  rw [m.session_openLinks]
  exact hat.congr rfl rfl (.inr rfl) fun hidle ↦
    ⟨hidle.toIsOver.linked _ _ rfl, fun h' ↦ absurd h' hspoilt⟩

/-- Another command link with the same exchange in flight, or none, is at the stage of the old
one. -/
theorem isAt_putCommand (hat : m.session.IsAt plain st) {c : CommandLink}
    (hc : m.session.command = some c) {after : CommandLink × Host Note}
    (hx : after.1.exchange = c.exchange ∨ after.1.exchange = none) :
    (m.putCommand after).session.IsAt plain st := by
  have hold := Session.exchange?_of_command hc
  refine hat.congr rfl rfl (hold ▸ hx) fun hidle ↦ ⟨hidle.toIsOver.linked _ _ ?_, fun h' ↦ ?_⟩
  · exact hx.elim (fun hsame ↦ hsame.trans (hold.symm.trans hidle.exchange)) id
  · cases (hidle.absent h').1.symm.trans hc

/-- Another notify link is at the stage of the old one. -/
theorem isAt_putNotify (hat : m.session.IsAt plain st) {n : NotifyLink}
    (hn : m.session.notify = some n) (after : NotifyLink × Host Note) :
    (m.putNotify after).session.IsAt plain st :=
  hat.congr rfl rfl (.inl rfl) fun hidle ↦
    ⟨hidle.toIsOver.linked _ _ hidle.exchange, fun h' ↦ by
      cases (hidle.absent h').2.symm.trans hn⟩

end Machine

namespace SessionM

open Machine

/-- A way of telling an observer that only listens: of an event there is a note, and no more. -/
def Listens (tell : Event → SessionM Unit) : Prop :=
  ∀ e m, m.observed = true →
    Ensures (tell e) m (fun _ after ↦ after = m.note (.heard e m.session)) fun _ ↦ False

/-- An observer that does nothing only listens. -/
theorem listens_silent (depth : Nat) : Listens (Observer.silent.tell depth) := by
  intro e m h
  rw [Observer.tell]
  cases depth <;> simp [ensures_ite, h, Observer.silent, Observer.carryOut]

variable {tell : Event → SessionM Unit} {m : Machine} {st next : Stage} {α : Type}
  {E : Machine → Prop}

private theorem Ensures.moves {x : SessionM α} {m' : Machine} {heard : List Event}
    (h : Ensures x m' (fun _ ↦ m'.Moves plain next) (m'.Moves plain next)) (hadds : m.Adds heard m')
    (hrun : st.run heard = some next) :
    Ensures x m' (fun _ ↦ m.Moves plain st) (m.Moves plain st) :=
  h.mono (fun _ _ hafter ↦ hafter.after hadds hrun) fun _ hafter ↦ hafter.after hadds hrun

/-- After telling there is a note, and the rest goes on from there. -/
theorem ensures_tell (htell : Listens tell) (hobserved : m.observed = true) {e : Event}
    {Q : Unit → Machine → Prop} (h : Q ⟨⟩ (m.note (.heard e m.session))) :
    Ensures (tell e) m Q E := by
  apply (htell e m hobserved).mono
  · intro _ after heq
    rw [heq]
    exact h
  · intro after hfault
    exact hfault.elim

private theorem moves_tell (htell : Listens tell) (hobserved : m.observed = true) {e : Event}
    (hafter : st.after e = some next) (hat : m.session.IsAt plain next) :
    Ensures (tell e) m (fun _ ↦ m.Moves plain st) E := by
  have hrun : st.run [e] = some next := by
    rw [Stage.run_singleton]
    exact hafter
  exact ensures_tell htell hobserved ((m.adds_note e _).moves hrun hat)

/-! ### Endings -/

private theorem adds_end (plain : Prop) (htell : Listens tell) (hobserved : m.observed = true)
    (e : Event) :
    Ensures (do modify Machine.reset; tell e) m
      (fun _ after ↦ m.Adds [e] after ∧ after.session.IsAt plain .idle) E := by
  have hreset : m.Adds [] m.reset := .of_asks m.asks_reset m.observed_reset
  rw [ensures_bind, ensures_modify]
  apply ensures_tell htell (hreset.observed.trans hobserved)
  exact ⟨hreset.trans (m.reset.adds_note _ _), m.isReset_reset.isAt⟩

/-- A failure is heard as the end of the session. -/
theorem adds_fail (plain : Prop) (htell : Listens tell) (hobserved : m.observed = true) :
    Ensures (fail tell) m
      (fun _ after ↦ m.Adds [.disconnected] after ∧ after.session.IsAt plain .idle) E :=
  adds_end plain htell hobserved .disconnected

private theorem adds_failToConnect (plain : Prop) (htell : Listens tell)
    (hobserved : m.observed = true) :
    Ensures (failToConnect tell) m
      (fun _ after ↦ m.Adds [.connectionFailure] after ∧ after.session.IsAt plain .idle) E :=
  adds_end plain htell hobserved .connectionFailure

/-- Wherever a failure may come, it is the end of the episode. -/
theorem moves_fail (htell : Listens tell) (hobserved : m.observed = true)
    (hafter : st.after .disconnected = some .idle) :
    Ensures (fail tell) m (fun _ ↦ m.Moves plain st) E :=
  (adds_fail plain htell hobserved).mono
    (fun _ _ h ↦ h.1.moves (by rw [Stage.run_singleton, hafter]) h.2) fun _ ↦ id

/-! ### Calls -/

private theorem adds_startExchange (what : Exchange) (request : Bytes) :
    Ensures (startExchange what request) m
      (fun sent after ↦ m.Adds [] after ∧ after.session.phase = m.session.phase ∧
        after.session.clientName = m.session.clientName ∧
        (sent = true → after.session.exchange? = some what)) E := by
  rw [ensures_startExchange]
  constructor
  · intro _
    exact ⟨.refl m, rfl, rfl, by simp⟩
  · intro link hlink
    refine ⟨.of_asks (link.asks_start _ _ _ _) rfl, rfl, rfl, ?_⟩
    intro hsent
    exact link.exchange_start hsent

/-- Dialling is the beginning of signing in, or at once the end. Under a name that cannot be written
nothing comes of it. -/
theorem adds_dial (plain : Prop) (htell : Listens tell) (hobserved : m.observed = true)
    (hname : plain → m.session.clientName.string?.isSome) :
    Ensures (dial tell) m (fun dialled after ↦
      (dialled = true → m.Adds [] after ∧ after.session.IsAt plain .opening) ∧
      (dialled = false → m.Adds [.connectionFailure] after ∧ after.session.IsAt plain .idle))
      fun after ↦ ¬ plain ∧ m.Adds [] after ∧ after = m.openLinks := by
  have hopened : m.Adds [] m.openLinks := .of_asks m.asks_openLinks m.observed_openLinks
  have hkept : m.openLinks.session.clientName = m.session.clientName := by
    rw [m.session_openLinks]
  simp only [dial, ensures_bind, ensures_modify, ensures_get, ensures_ofRequest, ensures_ite,
    ensures_enter, ensures_pure]
  constructor
  · intro request _
    apply (adds_startExchange .signIn request).mono _ fun _ ↦ id
    intro sent after hafter
    have hadds : m.Adds [] after := hopened.trans hafter.1
    constructor
    · intro hsent
      have hopening : (after.setPhase .signingIn).session.IsAt plain .opening := by
        refine ⟨Session.Phase.noConfusion, Session.Phase.noConfusion, ?_, fun h' ↦ ?_⟩
        · show after.session.exchange? ≠ some .relay
          rw [hafter.2.2.2 hsent]
          decide
        · show after.session.clientName.string?.isSome
          rw [hafter.2.2.1, hkept]
          exact hname h'
      exact ⟨fun _ ↦ ⟨⟨hadds.observed, hadds.log⟩, hopening⟩, by simp⟩
    · intro _
      apply (adds_failToConnect plain htell (hadds.observed.trans hobserved)).mono _ fun _ ↦ id
      intro _ final hend
      exact ⟨by simp, fun _ ↦ ⟨hadds.trans hend.1, hend.2⟩⟩
  · intro e herror
    refine ⟨fun h' ↦ ?_, hopened, trivial⟩
    obtain ⟨bytes, hbytes⟩ := Wire.Request.exists_encode_signInAs (hkept ▸ hname h')
    cases hbytes.symm.trans herror

/-- Within an opening, dialling again goes on with it or is its end. -/
theorem moves_dial (htell : Listens tell) (hobserved : m.observed = true)
    (hat : m.session.IsAt plain .opening) :
    Ensures (dial tell) m (fun _ ↦ m.Moves plain .opening) (m.Moves plain .opening) := by
  apply (adds_dial plain htell hobserved hat.2.2.2).mono
  · intro dialled after hafter
    cases dialled with
    | true => exact (hafter.1 rfl).1.moves rfl (hafter.1 rfl).2
    | false => exact (hafter.2 rfl).1.moves rfl (hafter.2 rfl).2
  · rintro _ ⟨hspoilt, hadds, rfl⟩
    exact hadds.moves rfl (isAt_openLinks hspoilt hat)

/-- Asking for a connection is reported at once where it is refused or fails, and not at all where
it is granted. -/
theorem adds_connect (htell : Listens tell) (hobserved : m.observed = true)
    (hat : m.session.IsAt plain st) (server : Option String) (port : Option Int)
    (name : Option Text.Raw) (hplain : plain → (Call.connect server port name).IsPlain) :
    Ensures (connect tell server port name) m (fun granted after ↦
      (granted = true → st = .idle ∧ m.Adds [] after ∧ after.session.IsAt plain .opening) ∧
      (granted = false → m.Adds [.connectionFailure] after ∧ after.session.IsAt plain st))
      fun after ↦ m.Adds [] after ∧ after.session.IsAt plain st := by
  simp only [connect, ensures_bind, ensures_get, ensures_ite, ensures_pure, ensures_remember,
    ensures_requireText, ensures_enter]
  constructor
  · intro _
    apply ensures_tell htell hobserved
    exact ⟨by simp, fun _ ↦ ⟨m.adds_note _ _, hat⟩⟩
  · intro hfree
    have hphase : m.session.phase = .disconnected := by
      simp only [ne_eq, Bool.or_eq_true, decide_eq_true_eq, not_or, Decidable.not_not] at hfree
      exact hfree.1.1
    cases st with
    | opening => exact absurd hphase hat.1
    | listing => exact hat.elim
    | established => rcases hat with h | h | h <;> cases hphase.symm.trans h
    | idle =>
      have hnoRelay : m.session.command.bind CommandLink.exchange ≠ some .relay :=
        fun hrelay ↦ by cases hat.exchange.symm.trans hrelay
      refine ⟨fun _ ↦ ⟨fun _ ↦ ?_, fun _ ↦ ?_⟩, fun _ ↦ ⟨m.adds_session _, hat.named _ _⟩⟩
      · rw [ensures_startLookup]
        constructor
        · intro _
          refine ⟨by simp, fun _ ↦ Ensures.mono (adds_failToConnect plain htell ?_)
            (fun _ after hend ↦ ⟨by simp, fun _ ↦ ⟨hend.1.after_asks ?_, hend.2⟩⟩) fun _ ↦ id⟩
          · exact hobserved
          · exact m.adds_session _
        · intro resolver _
          refine ⟨fun _ ↦ ⟨fun _ ↦ ⟨rfl, .of_asks (Host.asks_ask _ _) rfl, ?_⟩, by simp⟩, by simp⟩
          exact ⟨Session.Phase.noConfusion, Session.Phase.noConfusion, hnoRelay,
            fun h' ↦ (hplain h').string? m.config⟩
      · refine Ensures.mono (adds_dial plain htell ?_ ?_) (fun dialled after hafter ↦ ⟨?_, ?_⟩) ?_
        · exact hobserved
        · exact fun h' ↦ (hplain h').string? m.config
        · intro hdialled
          exact ⟨rfl, (m.adds_session _).trans (hafter.1 hdialled).1, (hafter.1 hdialled).2⟩
        · intro hrefused
          exact ⟨(m.adds_session _).trans (hafter.2 hrefused).1, (hafter.2 hrefused).2⟩
        · rintro _ ⟨hspoilt, hadds, rfl⟩
          exact ⟨(m.adds_session _).trans hadds, isAt_openLinks hspoilt (hat.named _ _)⟩

/-- A relay moves the monitor nowhere. -/
theorem moves_sendTo (htell : Listens tell) (hobserved : m.observed = true)
    (hat : m.session.IsAt plain st) (peer : Int) (payload : Except Wire.RequestError Bytes) :
    Ensures (sendTo tell peer payload) m (fun _ ↦ m.Moves plain st) (m.Moves plain st) := by
  simp only [sendTo, ensures_bind, ensures_get, ensures_ite, ensures_pure, ensures_requireText,
    ensures_ofRequest]
  refine ⟨fun _ ↦ .refl hat, fun hconnected ↦ ⟨fun _ ↦ ⟨fun _ ↦ .refl hat, fun _ ↦ .refl hat⟩,
    fun _ ↦ ⟨fun request _ ↦ ?_, fun _ _ ↦ .refl hat⟩⟩⟩
  have hphase := Decidable.not_not.1 hconnected
  cases hat.eq_established hphase
  apply (adds_startExchange .relay request).mono _ fun _ ↦ id
  intro sent after hafter
  constructor
  · intro _
    exact hafter.1.moves rfl (.inl (hafter.2.1.trans hphase))
  · intro _
    have hobserved' := hafter.1.observed.trans hobserved
    exact Ensures.moves (moves_fail htell hobserved' rfl) hafter.1 rfl

/-- Signing out is the end of an episode or goes on with it. -/
theorem moves_signOut (htell : Listens tell) (hobserved : m.observed = true)
    (hat : m.session.IsAt plain st) :
    Ensures (signOut tell) m (fun _ ↦ m.Moves plain st) (m.Moves plain st) := by
  simp only [signOut, ensures_bind, ensures_phase, ensures_ite, ensures_pure, ensures_modify,
    ensures_get, ensures_enter, ensures_ofRequest, quiet_eq, Bool.or_eq_true, decide_eq_true_eq,
    not_or]
  refine ⟨fun _ ↦ .refl hat, fun hon ↦ ?_⟩
  have hbusy := hon.1
  have hquiet : m.Adds [] m.quiet := .of_asks m.asks_quiet m.observed_quiet
  have hend := hat.after_disconnected hbusy
  have hx : m.quiet.session.exchange? = m.session.exchange? := by
    rw [Session.exchange?, session_quiet]
    rfl
  have hname : m.quiet.session.clientName = m.session.clientName := by
    rw [session_quiet]
  refine ⟨fun _ ↦ ?_, fun _ ↦ ⟨fun _ ↦ ?_, fun _ ↦ ⟨fun request _ ↦ ?_, fun _ _ ↦ ?_⟩⟩⟩
  · exact Adds.moves ⟨hquiet.observed, hquiet.log⟩ rfl (hat.leave hbusy (.inr rfl) hname (.inl hx))
  · exact Ensures.moves (moves_fail htell (hquiet.observed.trans hobserved) hend) hquiet rfl
  · apply (adds_startExchange .signOut request).mono _ fun _ ↦ id
    intro sent after hafter
    have hadds : m.Adds [] after := hquiet.trans ⟨hafter.1.observed, hafter.1.log⟩
    constructor
    · intro hsent
      have hleaving : after.session.exchange? ≠ some .relay := by
        rw [hafter.2.2.2 hsent]
        decide
      exact hadds.moves rfl
        (hat.leave hbusy (.inl hafter.2.1) (hafter.2.2.1.trans hname) (.inr hleaving))
    · intro _
      exact Ensures.moves (moves_fail htell (hadds.observed.trans hobserved) hend) hadds rfl
  · exact Adds.moves ⟨hquiet.observed, hquiet.log⟩ rfl (hat.leave hbusy (.inl rfl) hname (.inl hx))

/-! ### The command link -/

private theorem moves_writeRequest (htell : Listens tell) (hobserved : m.observed = true)
    (hat : m.session.IsAt plain st) (hbusy : m.session.phase ≠ .disconnected) :
    Ensures (writeRequest tell) m (fun _ ↦ m.Moves plain st) (m.Moves plain st) := by
  rw [writeRequest, ensures_bind, ensures_withCommand]
  refine ⟨fun _ ↦ ensures_pure.2 (.refl hat), ?_⟩
  intro link hlink
  have hadds : m.Adds [] (m.putCommand (link.flush m.host).2) :=
    .of_asks (link.asks_flush m.host) rfl
  have hgo : m.Moves plain st (m.putCommand (link.flush m.host).2) :=
    hadds.moves rfl (isAt_putCommand hat hlink (.inl (link.flush_frame m.host).2.1))
  cases (link.flush m.host).1 with
  | failed =>
    exact Ensures.moves (moves_fail htell (hadds.observed.trans hobserved)
      (hat.after_disconnected hbusy)) hadds rfl
  | idle => exact ensures_pure.2 hgo
  | written size => exact ensures_pure.2 hgo

/-- A connected session reports every peer that is listed, and then that it is signed in. -/
theorem adds_announce (htell : Listens tell) (hobserved : m.observed = true)
    (hphase : m.session.phase = .connected) (listed : List Peer.Entry) :
    Ensures (announce tell listed) m
      (fun _ after ↦ m.Adds (announced listed) after ∧ after.session = m.session) E := by
  induction listed generalizing m with
  | nil =>
    simp only [announce, ensures_bind, ensures_phase, ensures_ite, ensures_pure]
    constructor
    · intro _
      exact ensures_tell htell hobserved ⟨m.adds_note _ _, rfl⟩
    · intro hnot
      exact absurd hphase hnot
  | cons entry rest ih =>
    simp only [announce, ensures_bind, ensures_phase, ensures_ite, ensures_pure]
    constructor
    · intro _
      apply ensures_tell htell hobserved
      refine Ensures.mono (ih ?_ ?_) (fun _ _ hafter ↦ ⟨(m.adds_note _ _).trans hafter.1, hafter.2⟩)
        fun _ ↦ id
      · exact hobserved
      · exact hphase
    · intro hnot
      exact absurd hphase hnot

private theorem moves_acceptSignIn (htell : Listens tell) (hobserved : m.observed = true)
    (response : Wire.Response) :
    Ensures (acceptSignIn tell response) m (fun _ ↦ m.Moves plain .opening)
      (m.Moves plain .opening) := by
  have hend (m' : Machine) (hadds : m.Adds [] m') :
      Ensures (fail tell) m' (fun _ ↦ m.Moves plain .opening) (m.Moves plain .opening) :=
    Ensures.moves (moves_fail htell (hadds.observed.trans hobserved) rfl) hadds rfl
  rw [acceptSignIn, ensures_ite]
  refine ⟨fun _ ↦ hend m (.refl m), fun _ ↦ ?_⟩
  cases response.peerId? with
  | none => exact hend m (.refl m)
  | some id =>
    simp only [ensures_ite, ensures_bind, ensures_get, ensures_remember, ensures_withNotify]
    refine ⟨fun _ ↦ hend m (.refl m), fun _ ↦ ⟨fun _ ↦ ⟨by simp, fun _ ↦ hend _ ?_⟩,
      fun link _ ↦ ⟨fun _ ↦ ?_, fun _ ↦ hend _ ?_⟩⟩⟩
    · exact m.adds_session _
    · refine Ensures.mono (adds_announce htell ?_ ?_ _) (fun _ after hafter ↦ ?_) fun _ h ↦ h
      · exact hobserved
      · rfl
      · refine Adds.moves (hafter.1.after_asks ?_) (Stage.run_opening_announced _) ?_
        · exact .of_asks (Host.asks_connect _ _ _) rfl
        · rw [hafter.2]
          exact .inl rfl
    · exact .of_asks (Host.asks_connect _ _ _) rfl

private theorem moves_acceptRelay (htell : Listens tell) (hobserved : m.observed = true)
    (hphase : m.session.phase = .connected) (response : Wire.Response) :
    Ensures (acceptRelay tell response) m (fun _ ↦ m.Moves plain .established)
      (m.Moves plain .established) := by
  rw [acceptRelay, ensures_ite]
  exact ⟨fun _ ↦ moves_tell htell hobserved rfl (.inl hphase),
    fun _ ↦ moves_fail htell hobserved rfl⟩

/-- Only a relay that was waited for is reported, and only an established session relays. -/
theorem moves_acceptDeferred (htell : Listens tell) (hobserved : m.observed = true)
    (hat : m.session.IsAt plain st) (hphase : m.session.phase = .signingOutPending)
    {what : Option Exchange} (hwhat : what = some .relay → st = .established)
    (response : Wire.Response) :
    Ensures (acceptDeferred tell what response) m (fun _ ↦ m.Moves plain st)
      (m.Moves plain st) := by
  have hbusy : m.session.phase ≠ .disconnected := by
    rw [hphase]
    decide
  have hrest (m' : Machine) (hobserved' : m'.observed = true) (hat' : m'.session.IsAt plain st) :
      Ensures (do
        if (← phase) = .signingOutPending then
          discard (signOut tell)) m' (fun _ ↦ m'.Moves plain st) (m'.Moves plain st) := by
    simp only [ensures_bind, ensures_phase, ensures_ite, ensures_discard, ensures_pure]
    exact ⟨fun _ ↦ moves_signOut htell hobserved' hat', fun _ ↦ .refl hat'⟩
  rw [acceptDeferred, ensures_ite]
  refine ⟨fun _ ↦ moves_fail htell hobserved (hat.after_disconnected hbusy), fun _ ↦ ?_⟩
  rcases what with _ | _ | _ | _
  · exact hrest m hobserved hat
  · cases response.peerId? with
    | none => exact hrest m hobserved hat
    | some assigned =>
      rw [ensures_bind, ensures_remember]
      have hat' : (m.session.assign assigned).IsAt plain st :=
        hat.congr rfl rfl (.inl rfl) fun hidle ↦ absurd hidle.phase hbusy
      exact Ensures.moves (hrest _ hobserved hat') (m.adds_session _) rfl
  · cases hwhat rfl
    rw [ensures_bind]
    apply ensures_tell htell hobserved
    exact Ensures.moves (hrest _ hobserved hat) (m.adds_note _ _) rfl
  · exact hrest m hobserved hat

private theorem moves_armRetry (hat : m.session.IsAt plain st)
    (hbusy : m.session.phase ≠ .disconnected) :
    Ensures armRetry m (fun _ ↦ m.Moves plain st) E := by
  rw [ensures_armRetry]
  constructor
  · intro _
    exact .refl hat
  · intro retry _
    exact Adds.moves (.of_asks (Host.asks_schedule _ _) rfl) rfl
      (hat.congr rfl rfl (.inl rfl) fun hidle ↦ absurd hidle.phase hbusy)

/-! ### The notify link -/

/-- News of a connected session. -/
theorem moves_notice (htell : Listens tell) (hobserved : m.observed = true)
    (hphase : m.session.phase = .connected) {e : Event}
    (hafter : Stage.established.after e = some .established) (directory : Peer.Directory) :
    Ensures (tell e) { m with session := { m.session with directory } }
      (fun _ ↦ m.Moves plain .established) E := by
  have hrun : Stage.established.run [e] = some .established := by
    rw [Stage.run_singleton]
    exact hafter
  apply ensures_tell htell
  · exact hobserved
  · exact ((adds_note _ _ _).after_asks (m.adds_session _)).moves hrun (.inl hphase)

private theorem moves_applyEntry (htell : Listens tell) (hobserved : m.observed = true)
    (hphase : m.session.phase = .connected) (body : Bytes) :
    Ensures (applyEntry tell body) m (fun _ ↦ m.Moves plain .established)
      (m.Moves plain .established) := by
  rw [applyEntry]
  cases Peer.Entry.read? (Text.Utf8.decodeLossy body) with
  | none => exact ensures_pure.2 (.refl (.inl hphase))
  | some entry =>
    simp only [ensures_bind, ensures_get, ensures_ite, ensures_remember, ensures_pure]
    refine ⟨fun _ ↦ ⟨fun _ ↦ ?_, fun _ ↦ ?_⟩, fun _ ↦ ?_⟩
    · exact moves_notice htell hobserved hphase rfl _
    · exact (m.adds_session _).moves rfl (.inl hphase)
    · exact moves_notice htell hobserved hphase rfl _

private theorem moves_acceptPayload (htell : Listens tell) (hobserved : m.observed = true)
    (hphase : m.session.phase = .connected) (peer : Int) (payload : Bytes) :
    Ensures (acceptPayload tell peer payload) m (fun _ ↦ m.Moves plain .established)
      (m.Moves plain .established) := by
  simp only [acceptPayload, ensures_ite, ensures_bind, ensures_remember]
  exact ⟨fun _ ↦ moves_notice htell hobserved hphase rfl _,
    fun _ ↦ moves_tell htell hobserved rfl (.inl hphase)⟩

private theorem moves_acceptNotification (htell : Listens tell) (hobserved : m.observed = true)
    (hphase : m.session.phase = .connected) (response : Wire.Response) :
    Ensures (acceptNotification tell response) m (fun _ ↦ m.Moves plain .established)
      (m.Moves plain .established) := by
  have hend : Ensures (fail tell) m (fun _ ↦ m.Moves plain .established)
      (m.Moves plain .established) :=
    moves_fail htell hobserved rfl
  rw [acceptNotification, ensures_ite]
  refine ⟨fun _ ↦ hend, fun _ ↦ ?_⟩
  cases response.peerId? with
  | none => exact hend
  | some id =>
    simp only [ensures_bind, ensures_get, ensures_ite]
    exact ⟨fun _ ↦ moves_applyEntry htell hobserved hphase _,
      fun _ ↦ moves_acceptPayload htell hobserved hphase id _⟩

/-- Of the wait that is written once the connection is there nothing is heard, unless the session
fails. -/
theorem moves_startWait (htell : Listens tell) (hobserved : m.observed = true)
    (hphase : m.session.phase = .connected) :
    Ensures (startWait tell) m (fun _ ↦ m.Moves plain .established)
      (m.Moves plain .established) := by
  have hgo (m' : Machine) (h : m.Adds [] m' ∧ m'.session.phase = .connected) :
      m.Moves plain .established m' := h.1.moves rfl (.inl h.2)
  refine ensures_startWait (fun m' h ↦ ?_) hgo hgo ⟨.refl m, hphase⟩ fun link _ ↦ ⟨?_, hphase⟩
  · exact Ensures.moves (moves_fail htell (h.1.observed.trans hobserved) rfl) h.1 rfl
  · exact .of_asks (link.asks_issueWait _ _) rfl

private theorem moves_rearmWait (htell : Listens tell) (hobserved : m.observed = true)
    (hphase : m.session.phase = .connected) :
    Ensures (rearmWait tell) m (fun _ ↦ m.Moves plain .established)
      (m.Moves plain .established) := by
  have hgo (m' : Machine) (h : m.Adds [] m' ∧ m'.session.phase = .connected) :
      m.Moves plain .established m' := h.1.moves rfl (.inl h.2)
  refine ensures_rearmWait (fun m' h ↦ ?_) hgo hgo ⟨.refl m, hphase⟩ fun link _ ↦ ⟨?_, hphase⟩
  · exact Ensures.moves (moves_fail htell (h.1.observed.trans hobserved) rfl) h.1 rfl
  · exact .of_asks (link.asks_rearm _ _ _) rfl

/-! ### Signals -/

/-- Whether a signal is the answer to a relay. -/
def Signal.IsRelayAnswer : Signal → Prop
  | .commandAnswered what _ => what = some .relay
  | _ => False

/-- Whatever a signal means in the phase, it moves the monitor along. -/
theorem moves_react (htell : Listens tell) (hobserved : m.observed = true)
    (hat : m.session.IsAt plain st) {signal : Signal}
    (hrelay : signal.IsRelayAnswer → st = .established) :
    Ensures (react tell signal) m (fun _ ↦ m.Moves plain st) (m.Moves plain st) := by
  rw [react, ensures_bind, ensures_phase]
  have hend (hbusy : m.session.phase ≠ .disconnected) :
      Ensures (fail tell) m (fun _ ↦ m.Moves plain st) (m.Moves plain st) :=
    moves_fail htell hobserved (hat.after_disconnected hbusy)
  have hopening (hphase : m.session.phase = .resolving ∨ m.session.phase = .signingIn) :
      st = .opening := hat.eq_opening hphase
  have hwrite (hbusy : m.session.phase ≠ .disconnected) :
      Ensures (writeRequest tell) m (fun _ ↦ m.Moves plain st) (m.Moves plain st) :=
    moves_writeRequest htell hobserved hat hbusy
  split
  · next hphase =>
    cases hopening (.inl hphase)
    simp only [ensures_bind, ensures_remember, ensures_discard]
    have hat' : Session.IsAt plain
        { m.session with address := { m.session.address with host := _ } } .opening := hat
    exact Ensures.moves (moves_dial htell hobserved hat') (m.adds_session _) rfl
  · next hphase =>
    cases hopening (.inl hphase)
    exact (adds_failToConnect plain htell hobserved).mono (fun _ _ h ↦ h.1.moves rfl h.2) fun _ ↦ id
  · next hphase =>
    cases hopening (.inr hphase)
    exact ensures_discard.2 (moves_dial htell hobserved hat)
  · next hphase => exact hwrite (by rw [hphase]; decide)
  · next hphase => exact hwrite (by rw [hphase]; decide)
  · next hphase => exact hwrite (by rw [hphase]; decide)
  · next hphase => exact hwrite (by rw [hphase]; decide)
  · next hphase =>
    cases hopening (.inr hphase)
    exact moves_acceptSignIn htell hobserved _
  · next hphase =>
    cases hat.eq_established hphase
    exact moves_acceptRelay htell hobserved hphase _
  · next hphase =>
    exact moves_acceptDeferred htell hobserved hat hphase hrelay _
  · next hphase => exact hend (by rw [hphase]; decide)
  · next hphase => exact moves_armRetry hat (by rw [hphase]; decide)
  · next hphase => exact hend (by rw [hphase]; decide)
  · next hphase => exact hend (by rw [hphase]; decide)
  · next hphase => exact hend (by rw [hphase]; decide)
  · next hphase => exact hend (by rw [hphase]; decide)
  · next hphase => exact hend (by rw [hphase]; decide)
  · next hphase => exact ensures_discard.2 (moves_signOut htell hobserved hat)
  · next hphase => exact hend (by rw [hphase]; decide)
  · next hphase =>
    cases hat.eq_established hphase
    exact moves_startWait htell hobserved hphase
  · next hphase =>
    cases hat.eq_established hphase
    exact moves_acceptNotification htell hobserved hphase _
  · next hphase =>
    cases hat.eq_established hphase
    exact moves_rearmWait htell hobserved hphase
  · next hphase => exact hend (by rw [hphase]; decide)
  · exact ensures_pure.2 (.refl hat)

/-! ### Events of sockets -/

private theorem moves_loseCommand (htell : Listens tell) (hobserved : m.observed = true)
    (hat : m.session.IsAt plain st) (code : Int) (what : Option Exchange) :
    Ensures (do
      if code = Channel.refusedCode then
        react tell .commandRefused
      else if what.isSome then
        react tell .commandLost) m (fun _ ↦ m.Moves plain st) (m.Moves plain st) := by
  simp only [ensures_ite, ensures_pure]
  refine ⟨fun _ ↦ ?_, fun _ ↦ ⟨fun _ ↦ ?_, fun _ ↦ .refl hat⟩⟩
  · exact moves_react htell hobserved hat False.elim
  · exact moves_react htell hobserved hat False.elim

private theorem moves_onCommand (htell : Listens tell) (hobserved : m.observed = true)
    (hat : m.session.IsAt plain st) {event : Channel.Event}
    (hstray : m.session.phase = .disconnected → ∀ bytes, event ≠ .received bytes) :
    Ensures (onCommand tell event) m (fun _ ↦ m.Moves plain st) (m.Moves plain st) := by
  cases event with
  | connected => exact moves_react htell hobserved hat False.elim
  | received bytes =>
    have hbusy : m.session.phase ≠ .disconnected := fun hphase ↦ hstray hphase bytes rfl
    rw [onCommand, ensures_bind, ensures_withCommand]
    refine ⟨fun _ ↦ ensures_pure.2 (.refl hat), fun link hlink ↦ ?_⟩
    have hadds : m.Adds [] (m.putCommand (link.receive bytes m.host).2) :=
      .of_asks (link.asks_receive _ _) rfl
    obtain ⟨-, ⟨-, hkept, hnot⟩ | ⟨-, hover, response, hfound⟩⟩ := link.receive_cases bytes m.host
    · have hat' : (m.putCommand (link.receive bytes m.host).2).session.IsAt plain st :=
        isAt_putCommand hat hlink (.inl hkept)
      cases hread : (link.receive bytes m.host).1 with
      | error e =>
        exact Ensures.moves (moves_fail htell (hadds.observed.trans hobserved)
          (hat.after_disconnected hbusy)) hadds rfl
      | ok found =>
        cases found with
        | none => exact ensures_pure.2 (hadds.moves rfl hat')
        | some found => exact absurd hread (hnot found)
    · have hat' : (m.putCommand (link.receive bytes m.host).2).session.IsAt plain st :=
        isAt_putCommand hat hlink (.inr hover)
      have hrelay (hwhat : link.exchange = some .relay) : st = .established :=
        hat.eq_established_of_relay ((Session.exchange?_of_command hlink).trans hwhat)
      rw [hfound]
      exact Ensures.moves (moves_react htell (hadds.observed.trans hobserved) hat' hrelay) hadds rfl
  | closed code =>
    rw [onCommand, ensures_bind, ensures_withCommand]
    refine ⟨fun _ ↦ moves_loseCommand htell hobserved hat code none, fun link hlink ↦ ?_⟩
    have hadds : m.Adds [] (m.putCommand (link.abort.2, m.host)) := .of_asks (.refl _) rfl
    have hat' : (m.putCommand (link.abort.2, m.host)).session.IsAt plain st :=
      isAt_putCommand hat hlink (.inr rfl)
    have hlost := moves_loseCommand htell (hadds.observed.trans hobserved) hat' code link.abort.1
    exact Ensures.moves hlost hadds rfl

/-- The induction is on the notifications still to be brought. -/
theorem moves_deliverAll (htell : Listens tell) (hobserved : m.observed = true)
    (hat : m.session.IsAt plain st) (responses : List Wire.Response) :
    Ensures (deliverAll tell responses) m (fun all after ↦ m.Moves plain st after ∧
      (all = true → responses = [] ∧ after.session.phase = m.session.phase ∨
        after.session.phase = .connected)) (m.Moves plain st) := by
  induction responses generalizing m st with
  | nil => exact ensures_pure.2 ⟨.refl hat, fun _ ↦ .inl ⟨rfl, rfl⟩⟩
  | cons response rest ih =>
    simp only [deliverAll, ensures_bind, ensures_phase, ensures_ite, ensures_pure]
    apply (moves_react htell hobserved hat False.elim).mono _ fun _ ↦ id
    intro _ after hafter
    constructor
    · intro hphase
      obtain ⟨heard, next, hadds, hrun, hat'⟩ := hafter
      apply (ih (hadds.observed.trans hobserved) hat').mono
      · intro all final hall
        refine ⟨hall.1.after hadds hrun, fun htrue ↦ .inr ?_⟩
        exact (hall.2 htrue).elim (fun hsame ↦ hsame.2.trans hphase) id
      · intro final hmoved
        exact hmoved.after hadds hrun
    · intro _
      exact ⟨hafter, by simp⟩

/-- Notifications that came at once are brought, and the next wait is put in place. -/
private theorem moves_bring (htell : Listens tell) (hobserved : m.observed = true)
    (hat : m.session.IsAt plain st) (responses : List Wire.Response) :
    Ensures (do
      if (← deliverAll tell responses) && !responses.isEmpty then
        rearmWait tell) m (fun _ ↦ m.Moves plain st) (m.Moves plain st) := by
  simp only [ensures_bind, ensures_ite, ensures_pure]
  apply (moves_deliverAll htell hobserved hat responses).mono _ fun _ ↦ id
  intro all after hafter
  refine ⟨fun hall ↦ ?_, fun _ ↦ hafter.1⟩
  rw [Bool.and_eq_true] at hall
  have hphase : after.session.phase = .connected := by
    apply (hafter.2 hall.1).resolve_left
    intro hempty
    rw [hempty.1] at hall
    cases hall.2
  obtain ⟨heard, next, hadds, hrun, hnext⟩ := hafter.1
  cases hnext.eq_established hphase
  exact Ensures.moves (moves_rearmWait htell (hadds.observed.trans hobserved) hphase) hadds hrun

private theorem moves_loseNotify (htell : Listens tell) (hobserved : m.observed = true)
    (hat : m.session.IsAt plain st) (code : Int) :
    Ensures (do
      if code = Channel.refusedCode then
        react tell .notifyRefused
      else
        react tell .notifyLost) m (fun _ ↦ m.Moves plain st) (m.Moves plain st) := by
  rw [ensures_ite]
  constructor
  · exact fun _ ↦ moves_react htell hobserved hat False.elim
  · exact fun _ ↦ moves_react htell hobserved hat False.elim

private theorem moves_onNotify (htell : Listens tell) (hobserved : m.observed = true)
    (hat : m.session.IsAt plain st) {event : Channel.Event}
    (hstray : m.session.phase = .disconnected → ∀ bytes, event ≠ .received bytes) :
    Ensures (onNotify tell event) m (fun _ ↦ m.Moves plain st) (m.Moves plain st) := by
  cases event with
  | connected => exact moves_react htell hobserved hat False.elim
  | received bytes =>
    have hbusy : m.session.phase ≠ .disconnected := fun hphase ↦ hstray hphase bytes rfl
    rw [onNotify, ensures_bind, ensures_withNotify]
    refine ⟨fun _ ↦ moves_bring htell hobserved hat [], fun link hlink ↦ ?_⟩
    have hadds : m.Adds [] (m.putNotify (link.receive bytes m.host).2.2) :=
      .of_asks (link.asks_receive _ _) rfl
    generalize link.receive bytes m.host = read at hadds
    obtain ⟨responses, outcome, after⟩ := read
    have hat' : (m.putNotify after).session.IsAt plain st :=
      isAt_putNotify hat hlink after
    have hobserved' := hadds.observed.trans hobserved
    cases outcome with
    | failed error =>
      exact Ensures.moves (moves_fail htell hobserved' (hat.after_disconnected hbusy)) hadds rfl
    | more => exact Ensures.moves (moves_bring htell hobserved' hat' responses) hadds rfl
    | closing => exact Ensures.moves (moves_bring htell hobserved' hat' responses) hadds rfl
  | closed code =>
    rw [onNotify, ensures_bind, ensures_withNotify]
    refine ⟨fun _ ↦ moves_loseNotify htell hobserved hat code, fun link hlink ↦ ?_⟩
    have hadds : m.Adds [] (m.putNotify (link.abort, m.host)) := .of_asks (.refl _) rfl
    have hat' : (m.putNotify (link.abort, m.host)).session.IsAt plain st :=
      isAt_putNotify hat hlink _
    have hlost := moves_loseNotify htell (hadds.observed.trans hobserved) hat' code
    exact Ensures.moves hlost hadds rfl

/-- Out of an episode, nothing but bytes over a link that was never used may be heard of. -/
theorem moves_onSocket (htell : Listens tell) (hobserved : m.observed = true)
    (hat : m.session.IsAt plain st) {socket : Nat} {event : Channel.Event}
    (hstray : m.session.phase = .disconnected → m.Owns socket → ∀ bytes,
      event ≠ .received bytes) :
    Ensures (onSocket tell socket event) m (fun _ ↦ m.Moves plain st) (m.Moves plain st) := by
  have hadds (p : Channel.Phase) : m.Adds [] { m with host := m.host.setPhase socket p } :=
    .of_asks (.refl _) rfl
  simp only [onSocket, ensures_bind, ensures_modify, ensures_get, ensures_ite, ensures_pure]
  refine ⟨fun hcommand ↦ ?_, fun _ ↦ ⟨fun hnotify ↦ ?_, fun _ ↦ (hadds _).moves rfl hat⟩⟩
  · obtain ⟨c, hc, hsocket⟩ := (Option.any_eq_true _ _).1 hcommand
    refine Ensures.moves (moves_onCommand htell ?_ ?_ ?_) (hadds _) rfl
    · exact hobserved
    · exact hat
    · exact fun hphase ↦ hstray hphase (.inl ⟨c, hc, by simpa using hsocket⟩)
  · obtain ⟨n, hn, hsocket⟩ := (Option.any_eq_true _ _).1 hnotify
    refine Ensures.moves (moves_onNotify htell ?_ ?_ ?_) (hadds _) rfl
    · exact hobserved
    · exact hat
    · exact fun hphase ↦ hstray hphase (.inr ⟨n, hn, by simpa using hsocket⟩)

/-! ### Lookups, timers and steps -/

/-- An answer to a lookup moves the monitor along. -/
theorem moves_onAnswer (htell : Listens tell) (hobserved : m.observed = true)
    (hat : m.session.IsAt plain st) (ip : Option String) :
    Ensures (onAnswer tell ip) m (fun _ ↦ m.Moves plain st) (m.Moves plain st) := by
  cases ip with
  | none => exact moves_react htell hobserved hat False.elim
  | some ip => exact moves_react htell hobserved hat False.elim

/-- The end of a lookup moves the monitor along. -/
theorem moves_onLookup (htell : Listens tell) (hobserved : m.observed = true)
    (hat : m.session.IsAt plain st) (ip : Option String) :
    Ensures (onLookup tell ip) m (fun _ ↦ m.Moves plain st) (m.Moves plain st) := by
  rw [onLookup, ensures_bind, ensures_remember]
  refine Ensures.moves (moves_onAnswer htell ?_ hat.rest.1 ip) (m.adds_session _) rfl
  exact hobserved

/-- A retry moves the monitor along. -/
theorem moves_onTimer (htell : Listens tell) (hobserved : m.observed = true)
    (hat : m.session.IsAt plain st) (timer : Nat) :
    Ensures (onTimer tell timer) m (fun _ ↦ m.Moves plain st) (m.Moves plain st) := by
  simp only [onTimer, ensures_bind, ensures_get]
  cases hfire : m.session.retry.fire? timer with
  | none => exact ensures_pure.2 (.refl hat)
  | some retry =>
    obtain ⟨-, rfl⟩ := RetryTimer.fire?_eq_some_iff.1 hfire
    rw [ensures_bind, ensures_remember]
    refine Ensures.moves (moves_react htell ?_ hat.rest.2 False.elim) (m.adds_session _) rfl
    exact hobserved

end SessionM

end Rendezvous
