import Rendezvous.Proofs.Session.Change
import Rendezvous.Proofs.Session.Endpoint.Basic

/-!
# Calls dial where the episode is headed

A call to connect that is granted settles a new aim, and what it dials is dialled there; every other
call dials the address that the session remembers. A call that is refused from the start leaves
everything as it is.
-/

namespace Rendezvous

open SessionM Machine

/-- The peer that a call relays something to. -/
def Call.relayee? : Call → Option Int
  | .send peer _ => some peer
  | .sendBytes peer _ => some peer
  | .hangUp peer => some peer
  | _ => none

namespace Course

variable {config : Config} {start m : Machine} {past : List Bearing}
  {tell : Event → SessionM Unit}

/-! ### Dialling the server -/

/-- What becomes of a machine that opens fresh links and dials the address it remembers. -/
structure Dialled (m m' : Machine) : Prop where
  settings : m'.config = m.config
  phase : m'.session.phase = .signingIn
  address : m'.session.address = m.session.address
  log : ∃ k asked, m'.host.log =
    .action (.connect k m.session.address) :: List.map .action asked ++ m.host.log ∧
      ∀ j address, .connect j address ∉ asked

/-- Fresh links over which nothing is dialled leave nothing to be tied to. -/
theorem Guided.dialRefused (h : Guided config start past m) (c : CommandLink) :
    Tied config start past (m.openLinks.putCommand (c, m.openLinks.host)).reset :=
  (h.asks (m.openLinks.putCommand (c, m.openLinks.host)) m.config_openLinks
    m.dials_openLinks).1.reset

/-- Fresh links that are not used, since the name cannot be written, change nothing that counts. -/
theorem Tied.dialUnwritten (h : Tied config start past m) : Tied config start past m.openLinks := by
  refine h.rest m.config_openLinks m.dials_openLinks fun aim hties ↦ ?_
  rw [m.session_openLinks]
  exact hties.congr rfl rfl rfl rfl fun _ ↦ rfl

private theorem address_openLinks (m : Machine) :
    m.openLinks.session.address = m.session.address := by
  rw [m.session_openLinks]

/-- Fresh links over which the server is dialled, with signing in on its way. -/
theorem dialled_openLinks {after : CommandLink × Host Note} {k : Nat}
    (hlog : after.2.log = .action (.connect k m.session.address) :: m.openLinks.host.log) :
    Dialled m ((m.openLinks.putCommand after).setPhase .signingIn) := by
  obtain ⟨asked, hopened, hnone⟩ := m.dials_openLinks (A := fun _ ↦ False)
  refine ⟨m.config_openLinks, rfl, address_openLinks m, k, asked, ?_, ?_⟩
  · rw [List.cons_append, ← hopened]
    exact hlog
  · exact fun j address hmem ↦ hnone j address hmem

private theorem ensures_dial (htell : Machine.Keeps (Tied config start past) tell)
    (h : Guided config start past m)
    (hunwritten : ¬ m.session.clientName.string?.isSome → Tied config start past m.openLinks) :
    Ensures (dial tell) m
      (fun granted after ↦ (granted = true → Dialled m after) ∧
        (granted = false → Tied config start past after))
      (Tied config start past) := by
  obtain ⟨c, hcommand⟩ : ∃ c, m.openLinks.session.command = some c :=
    ⟨_, congrArg Session.command m.session_openLinks⟩
  have hname : m.openLinks.session.clientName = m.session.clientName := by
    rw [m.session_openLinks]
  have hidle : ¬ c.isBusy = true := by
    have hfresh := hcommand
    rw [m.session_openLinks] at hfresh
    cases hfresh
    simp [CommandLink.isBusy]
  have hfails (e : Wire.RequestError) (hfailed : (Wire.Request.signInAs
      m.openLinks.session.clientName >>= Wire.Request.encode) = .error e) :
      Tied config start past m.openLinks := by
    apply hunwritten
    intro hnamed
    obtain ⟨bytes, hbytes⟩ := Wire.Request.exists_encode_signInAs (hname ▸ hnamed)
    cases hbytes.symm.trans hfailed
  simp only [dial, ensures_bind, ensures_modify, ensures_get, ensures_ofRequest,
    ensures_startExchange_of_eq hcommand, ensures_ite, ensures_enter, ensures_pure,
    address_openLinks]
  refine ⟨fun request _ ↦ ?_, hfails⟩
  rw [CommandLink.start, if_neg hidle]
  rcases m.openLinks.host.connect_cases c.socket m.session.address with ⟨hdialled, -⟩ | hrefused
  · simp only [hdialled]
    exact ⟨fun _ ↦ ⟨fun _ ↦ dialled_openLinks rfl, by simp⟩, by simp⟩
  · simp only [hrefused]
    refine ⟨by simp, fun _ ↦ ?_⟩
    rw [failToConnect, ensures_bind, ensures_modify]
    have hreset := htell .connectionFailure _ (h.dialRefused
      { c with framer := c.framer.reset, pending := none, exchange := none })
    exact (ensures_const.2 hreset).mono (fun _ _ hafter ↦ ⟨by simp, fun _ ↦ hafter⟩) fun _ ↦ id

/-- Under a name that cannot be written the links are opened and nothing is dialled. -/
theorem ensures_dial_unwritten (hname : ¬ m.session.clientName.string?.isSome) :
    Ensures (dial tell) m (fun _ _ ↦ False) (fun after ↦ after = m.openLinks) := by
  simp only [dial, ensures_bind, ensures_modify, ensures_get, ensures_ofRequest]
  refine ⟨fun request hrequest ↦ absurd ?_ hname, fun _ _ ↦ trivial⟩
  obtain ⟨s, hs, -⟩ := Wire.Request.exists_string?_of_signInAs hrequest
  rw [m.session_openLinks] at hs
  rw [hs]
  rfl

/-- Dialling where the episode is headed keeps the session tied to its aim. -/
theorem tied_dial (htell : Machine.Keeps (Tied config start past) tell)
    (h : Guided config start past m)
    (hheads : (aimAt? config start past m).bind Aim.address? = some m.session.address)
    (hunwritten : ¬ m.session.clientName.string?.isSome → Tied config start past m.openLinks) :
    Ensures (dial tell) m (fun _ ↦ Tied config start past) (Tied config start past) := by
  refine (ensures_dial htell h hunwritten).mono (fun granted after hafter ↦ ?_) fun _ ↦ id
  cases granted with
  | false => exact hafter.2 rfl
  | true =>
    obtain ⟨hsettings, hphase, haddress, k, asked, hlog, hnone⟩ := hafter.1 rfl
    have hdials : m.host.Dials (· = m.session.address) after.host := by
      refine ⟨.connect k m.session.address :: asked, hlog, fun j address hmem ↦ ?_⟩
      rcases List.mem_cons.1 hmem with heq | hasked
      · cases heq
        rfl
      · exact absurd hasked (hnone j address)
    obtain ⟨hguided, haim⟩ := h.dials hsettings hdials fun address heq ↦ heq ▸ hheads
    refine ⟨hguided, ?_⟩
    rw [haim]
    apply Session.ties_of_heads
    · rw [haddress]
      exact hheads
    · simp [hphase]
    · simp [hphase]

/-- What a granted call dials is dialled where the call says, and the session is tied to that. -/
theorem Dialled.called {m' : Machine} (hdialled : Dialled m m') (h : Guided config start past m)
    {a : Note} {aim : Aim} (hsettles : (Bearing.line (.note a)).settles? config = some aim)
    (haddress : aim.address? = some m.session.address) :
    Tied config start past (m'.note a) := by
  obtain ⟨hsettings, hphase, hsame, k, asked, hlog, hnone⟩ := hdialled
  have hnoted : (m'.note a).host.log =
      .note a :: .action (.connect k m.session.address) :: List.map .action asked ++
        m.host.log := congrArg (LogEntry.note a :: ·) hlog
  have hcourse : courseAt start past (m'.note a) =
      .line (.note a) :: Bearing.dial k m.session.address ::
        (asked.map Bearing.asked ++ courseAt start past m) := by
    rw [h.courseAt hnoted, List.map_cons, List.map_cons, List.map_map]
    rfl
  have hbefore : IsGuided config none (asked.map Bearing.asked ++ courseAt start past m) :=
    h.guided.asks fun j address hmem ↦ absurd hmem (hnone j address)
  refine ⟨⟨hsettings.trans h.settings, h.grown hnoted, ?_⟩, ?_⟩
  · rw [hcourse]
    exact hbefore.called hsettles haddress
  · rw [aimAt?, hcourse, aim?_of_settles hsettles]
    apply Session.ties_of_heads
    · show aim.address? = some m'.session.address
      rw [hsame, haddress]
    · simp [Machine.note, hphase]
    · simp [Machine.note, hphase]

/-! ### Ending the session -/

variable (htell : Machine.Keeps (Tied config start past) tell)
include htell

/-- A session that fails has no aim. -/
theorem tied_fail (h : Guided config start past m) :
    Ensures (fail tell) m (fun _ ↦ Tied config start past) (Tied config start past) := by
  rw [fail, ensures_bind, ensures_modify, ensures_const]
  exact htell _ _ h.reset

/-- A session that does not reach its server has no aim. -/
theorem tied_failToConnect (h : Guided config start past m) :
    Ensures (failToConnect tell) m (fun _ ↦ Tied config start past)
      (Tied config start past) := by
  rw [failToConnect, ensures_bind, ensures_modify, ensures_const]
  exact htell _ _ h.reset

/-! ### Calls -/

omit htell in
/-- A session that is over takes any name and any address. -/
theorem Tied.named (h : Tied config start past m) (hover : m.session.phase = .disconnected)
    (address : Address) (clientName : Text.Raw) :
    Tied config start past { m with session := { m.session with address, clientName } } := by
  refine h.rest rfl (.refl _) fun aim hties ↦ ⟨hties.idle, fun hresolving _ ↦ ?_, fun hnot ↦ ?_⟩
  · rw [show m.session.phase = .resolving from hresolving] at hover
    cases hover
  · exact absurd hover hnot

omit htell in
/-- A call that only looks the server up settles its aim when it is noted. -/
theorem Tied.lookedUp (h : Tied config start past m) {m' : Machine} {a : Note} {aim : Aim}
    {host : String} {port : Int} (hconfig : m'.config = m.config)
    (hlog : m'.host.log = [.note a, .action (.lookup host port)] ++ m.host.log)
    (hsettles : (Bearing.line (.note a)).settles? config = some aim)
    (hties : m'.session.Ties (some aim)) : Tied config start past m' := by
  have hcourse := h.toGuided.courseAt hlog
  refine ⟨⟨hconfig.trans h.settings, h.grown hlog, ?_⟩, ?_⟩
  · rw [hcourse]
    -- the line before the note of the call is that of the lookup
    have hbefore : IsGuided config (some (.line (.note a)))
        (.asked (.lookup host port) :: courseAt start past m) :=
      ⟨fun k address hdial ↦ (by cases hdial), h.guided.before rfl⟩
    exact ⟨fun k address hdial ↦ (by cases hdial), hbefore⟩
  · rw [aimAt?, hcourse, List.map_cons, List.cons_append, aim?_of_settles hsettles]
    exact hties

omit htell in
/-- Looking a named server up ties the session to the aim of the call, once that is noted. -/
theorem ensures_startLookup_tied (h : Tied config start past m)
    (hover : m.session.phase = .disconnected) {server : Option String} {port : Option Int}
    {name : Option Text.Raw}
    (hneeds : Address.needsLookup (Aim.ofCall config server port).server = true)
    (haddress : m.session.address =
      ⟨(Aim.ofCall config server port).server, (Aim.ofCall config server port).port⟩)
    (host : String) (asked : Int) :
    Ensures (startLookup host asked) (m.setPhase .resolving)
      (fun started after ↦
        (started = true → Tied config start past
          (after.note (.called (.connect server port name) (some true)))) ∧
        (¬ started = true → Guided config start past after))
      (Tied config start past) := by
  rw [ensures_startLookup]
  constructor
  · intro _
    exact ⟨by simp, fun _ ↦ (h.toGuided.asks (m.setPhase .resolving) rfl (.refl _)).1⟩
  · intro resolver _
    refine ⟨fun _ ↦ h.lookedUp rfl rfl rfl ⟨fun _ ↦ h.ties.idle (.inl hover), fun _ _ ↦ ?_,
      fun _ hresolved ↦ absurd rfl hresolved⟩, by simp⟩
    exact ⟨_, rfl, hneeds, rfl, haddress⟩

private theorem tied_connect (h : Tied config start past m) (server : Option String)
    (port : Option Int) (name : Option Text.Raw) :
    Ensures (connect tell server port name) m
      (fun granted after ↦
        Tied config start past (after.note (.called (.connect server port name) (some granted))))
      (Tied config start past) := by
  obtain rfl := h.settings
  simp only [connect, ensures_bind, ensures_get, ensures_ite, ensures_pure, ensures_remember,
    ensures_requireText, ensures_enter]
  constructor
  · intro _
    exact (ensures_const.2 (htell _ m h)).mono (fun _ _ hafter ↦ hafter.note rfl) fun _ ↦ id
  · intro hfree
    have hover : m.session.phase = .disconnected := by
      simp only [ne_eq, Bool.or_eq_true, decide_eq_true_eq, not_or, Decidable.not_not] at hfree
      exact hfree.1.1
    have hnamed := h.named hover
    refine ⟨fun _ ↦ ⟨fun hneeds ↦ ?_, fun hliteral ↦ ?_⟩, fun _ ↦ hnamed _ _⟩
    · refine (ensures_startLookup_tied (hnamed _ _) (by exact hover) hneeds rfl _ _).mono
        (fun started after hafter ↦ ⟨hafter.1, fun hnot ↦ ?_⟩) fun _ ↦ id
      exact (tied_failToConnect htell (hafter.2 hnot)).mono (fun _ _ hended ↦ hended.note rfl)
        fun _ ↦ id
    · have htied := hnamed ⟨(Aim.ofCall m.config server port).server,
        (Aim.ofCall m.config server port).port⟩ (name.getD m.config.clientName)
      have hguided := htied.toGuided
      have hdial := ensures_dial htell hguided fun _ ↦ htied.dialUnwritten
      refine hdial.mono (fun granted after hafter ↦ ?_) fun _ ↦ id
      cases granted with
      | false => exact (hafter.2 rfl).note rfl
      | true =>
        have haddress : (Aim.ofCall m.config server port).address? =
            some ⟨server.getD m.config.server, (Aim.ofCall m.config server port).port⟩ :=
          Aim.address?_of_literal hliteral
        exact (hafter.1 rfl).called hguided rfl haddress

/-- Starting an exchange of a session whose links are open dials where the episode is headed. -/
theorem tied_sendTo (h : Tied config start past m) (peer : Int)
    (payload : Except Wire.RequestError Bytes) :
    Ensures (sendTo tell peer payload) m (fun _ ↦ Tied config start past)
      (Tied config start past) := by
  simp only [sendTo, ensures_bind, ensures_get, ensures_ite, ensures_pure, ensures_requireText,
    ensures_ofRequest, ensures_startExchange]
  refine ⟨fun _ ↦ h, fun hconnected ↦ ⟨fun _ ↦ ⟨fun _ ↦ h, fun _ ↦ h⟩,
    fun _ ↦ ⟨fun request _ ↦ ⟨fun _ ↦ ?_, fun c hcommand ↦ ?_⟩, fun _ _ ↦ h⟩⟩⟩
  · exact ⟨by simp, fun _ ↦ tied_fail htell h.toGuided⟩
  · have hphase : m.session.phase = .connected := Decidable.not_not.1 hconnected
    have hsent := h.startCommand (by simp [hphase]) (by simp [hphase])
      (c.dials_start .relay request m.session.address m.host)
    exact ⟨fun _ ↦ hsent, fun _ ↦ tied_fail htell hsent.toGuided⟩

/-- Signing out dials only what the session aims at. -/
theorem tied_signOut (h : Tied config start past m) :
    Ensures (signOut tell) m (fun _ ↦ Tied config start past) (Tied config start past) := by
  simp only [signOut, ensures_bind, ensures_phase, ensures_ite, ensures_pure, ensures_modify,
    ensures_get, ensures_enter, ensures_ofRequest, ensures_startExchange, quiet_eq]
  have hquiet := h.quiet
  refine ⟨fun _ ↦ h, fun _ ↦ ⟨fun hbusy ↦ ?_, fun _ ↦ ⟨fun _ ↦ tied_fail htell hquiet.toGuided,
    fun hassigned ↦ ?_⟩⟩⟩
  · have hx := Session.exchange?_ne_none_of_isBusy hbusy
    exact hquiet.remember (hquiet.ties.heads (.inr hx)) rfl (by simp) (by simp)
  · have hleft : Tied config start past (m.quiet.setPhase .signingOut) :=
      hquiet.remember (hquiet.ties.heads (.inl hassigned)) rfl (by simp) (by simp)
    refine ⟨fun request _ ↦ ⟨fun _ ↦ ⟨by simp, fun _ ↦ tied_fail htell hleft.toGuided⟩,
      fun c hcommand ↦ ?_⟩, fun _ _ ↦ hleft⟩
    have hsent := hleft.startCommand Session.Phase.noConfusion Session.Phase.noConfusion
      (c.dials_start .signOut request _ _)
    exact ⟨fun _ ↦ hsent, fun _ ↦ tied_fail htell hsent.toGuided⟩

/-- Whatever the call, its answer can be noted. -/
theorem tied_perform (h : Tied config start past m) (c : Call) :
    Ensures (perform tell c) m
      (fun answer after ↦ Tied config start past (after.note (.called c answer)))
      (Tied config start past) := by
  cases c with
  | connect server port name => exact ensures_map.2 (tied_connect htell h server port name)
  | send peer text =>
    exact ensures_map.2 ((tied_sendTo htell h peer _).mono (fun _ _ hsent ↦ hsent.note rfl)
      fun _ ↦ id)
  | sendBytes peer payload =>
    exact ensures_map.2 ((tied_sendTo htell h peer _).mono (fun _ _ hsent ↦ hsent.note rfl)
      fun _ ↦ id)
  | hangUp peer =>
    exact ensures_map.2 ((tied_sendTo htell h peer _).mono (fun _ _ hsent ↦ hsent.note rfl)
      fun _ ↦ id)
  | signOut =>
    exact ensures_map.2 ((tied_signOut htell h).mono (fun _ _ hleft ↦ hleft.note rfl) fun _ ↦ id)
  | close =>
    simp only [perform, ensures_bind, ensures_modify, ensures_pure]
    exact h.toGuided.reset.note rfl

omit htell in
/-- Whatever the observer does when it is told, the session stays tied to its aim. -/
theorem tied_carryOut (htell : Machine.Keeps (Tied config start past) tell)
    (h : Tied config start past m) (deeds : List Deed) :
    Ensures (Observer.carryOut tell deeds) m (fun _ ↦ Tied config start past)
      (Tied config start past) := by
  induction deeds generalizing m with
  | nil => exact ensures_pure.2 h
  | cons deed rest ih =>
    have hgo (c : Call) (answer : Option Bool) (after : Machine)
        (hafter : Tied config start past (after.note (.called c answer))) :
        Ensures (do modify (·.note (.called c answer)); Observer.carryOut tell rest) after
          (fun _ ↦ Tied config start past) (Tied config start past) := by
      rw [ensures_bind, ensures_modify]
      exact ih hafter
    cases deed with
    | refuse => exact ensures_throw.2 h
    | call c =>
      rw [Observer.carryOut, ensures_bind]
      exact (tied_perform htell h c).mono (fun answer ↦ hgo c answer) fun _ ↦ id
    | attempt c =>
      rw [Observer.carryOut, ensures_bind, ensures_tryCatch]
      refine (tied_perform htell h c).mono (fun answer ↦ hgo c answer) fun after hafter ↦ ?_
      have hnone : (Bearing.line (.note (.called c none))).settles? config = none := by
        cases c <;> rfl
      exact ensures_pure.2 (hgo c none after (hafter.note hnone))

omit htell in

/-- Telling an observer, whatever it calls, leaves the session tied to its aim. -/
theorem keeps_tell (o : Observer) (depth : Nat) :
    Machine.Keeps (Tied config start past) (o.tell depth) := by
  induction depth with
  | zero =>
    intro e m h
    apply ensures_const.1
    simp only [Observer.tell, ensures_bind, ensures_get, ensures_ite, ensures_set, ensures_pure]
    exact ⟨fun _ ↦ h.note rfl, fun _ ↦ h⟩
  | succ depth ih =>
    intro e m h
    apply ensures_const.1
    simp only [Observer.tell, ensures_bind, ensures_get, ensures_ite, ensures_set, ensures_pure]
    exact ⟨fun _ ↦ tied_carryOut ih (h.note rfl) _, fun _ ↦ h⟩

/-! ### Calls that are refused -/

omit htell in
/-- A connection that is asked for at the wrong time, or without a server or a name, is reported as
a failure, and nothing else happens. -/
theorem perform_connect_of_refused {server : Option String} {name : Option Text.Raw}
    (hrefused : m.session.phase ≠ .disconnected ∨ server.getD m.config.server = "" ∨
      (name.getD m.config.clientName).isEmpty) (port : Option Int) :
    perform tell (.connect server port name) m =
      (do tell .connectionFailure; return some false) m := by
  have hguard : (m.session.phase ≠ .disconnected || (server.getD m.config.server).isEmpty ||
      (name.getD m.config.clientName).isEmpty) = true := by
    simpa [or_assoc] using hrefused
  have hconnect : connect tell server port name m =
      (do tell .connectionFailure; return false) m := by
    rw [connect, bind_apply]
    show (if (m.session.phase ≠ .disconnected || (server.getD m.config.server).isEmpty ||
        (name.getD m.config.clientName).isEmpty) = true then _ else _ : SessionM Bool) m = _
    rw [if_pos hguard]
  rw [perform, ← bind_pure_comp, bind_apply, hconnect, bind_apply, bind_apply]
  generalize tell .connectionFailure m = told
  rcases told with ⟨_ | _, _⟩ <;> rfl

omit htell in
/-- A relay that is asked for at the wrong time or to nobody leaves everything as it is. -/
theorem ensures_sendTo_of_refused {peer : Int}
    (hrefused : m.session.phase ≠ .connected ∨ peer < 0 ∨ m.session.exchange? ≠ none)
    (payload : Except Wire.RequestError Bytes) :
    Ensures (sendTo tell peer payload) m (fun granted after ↦ granted = false ∧ after = m)
      (fun after ↦ ¬ Numeral.IsWritable peer ∧ after = m) := by
  simp only [sendTo, ensures_bind, ensures_get, ensures_ite, ensures_pure, ensures_requireText]
  refine ⟨fun _ ↦ ⟨trivial, trivial⟩, fun hconnected ↦ ⟨fun _ ↦ ⟨fun _ ↦ ⟨trivial, trivial⟩,
    fun hlong ↦ ⟨by simp [Numeral.IsWritable, hlong], trivial⟩⟩, fun hfree ↦ absurd hrefused ?_⟩⟩
  simp only [Bool.or_eq_true, decide_eq_true_eq, not_or] at hfree
  have hidle := Session.exchange?_eq_none_of_not_isBusy hfree.2
  rw [not_or, not_or]
  exact ⟨hconnected, hfree.1.2, fun hne ↦ hne hidle⟩

omit htell in
/-- A call to relay that is refused from the start leaves the machine as it is and tells nobody. Its
answer says so, where the id it names can be written. -/
theorem perform_relay_of_refused {c : Call} {peer : Int} (hc : c.relayee? = some peer)
    (hrefused : m.session.phase ≠ .connected ∨ peer < 0 ∨ m.session.exchange? ≠ none) :
    (perform tell c m).2 = m ∧ ((perform tell c m).1 = .ok (some false) ∨
      ¬ Numeral.IsWritable peer ∧ ∃ f, (perform tell c m).1 = .error f) := by
  obtain ⟨payload, hperform⟩ : ∃ payload, perform tell c = some <$> sendTo tell peer payload := by
    cases c <;> cases hc <;> exact ⟨_, rfl⟩
  have hensures : Ensures (perform tell c) m (fun answer after ↦ answer = some false ∧ after = m)
      (fun after ↦ ¬ Numeral.IsWritable peer ∧ after = m) := by
    rw [hperform, ensures_map]
    exact (ensures_sendTo_of_refused hrefused payload).mono
      (fun _ _ hno ↦ ⟨congrArg some hno.1, hno.2⟩) fun _ ↦ id
  rcases hensures.result with ⟨answer, hanswer, rfl, hsame⟩ | ⟨f, hfault, hlong, hsame⟩
  · exact ⟨hsame, .inl hanswer⟩
  · exact ⟨hsame, .inr ⟨hlong, f, hfault⟩⟩

end Course

end Rendezvous
