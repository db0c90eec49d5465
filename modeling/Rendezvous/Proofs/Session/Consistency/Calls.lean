import Rendezvous.Proofs.Session.Consistency.Basic
import Rendezvous.Proofs.Wire.Request

/-!
# Calls keep a session together

Every call that can be written ends with everything fitting the phase again, also where a socket
is not dialled, and whatever an observer does in between that keeps to the same rule.
-/

namespace Rendezvous

/-- Whether the name that a call gives, if it gives one, is a string. -/
def Call.IsPlain : Call → Prop
  | .connect _ _ name => ∀ given ∈ name, given.string?.isSome
  | _ => True

instance (c : Call) : Decidable c.IsPlain := by
  cases c <;> unfold Call.IsPlain <;> infer_instance

/-- The name that such a call comes down to is a string. -/
theorem Call.IsPlain.string? {server : Option String} {port : Option Int} {name : Option Text.Raw}
    (h : (Call.connect server port name).IsPlain) (config : Config) :
    (name.getD (.ofString config.clientName)).string?.isSome := by
  cases name with
  | none => simp
  | some given => exact h given rfl

/-- Whether a call gives nothing that cannot be written. -/
def Call.IsWritable (config : Config) : Call → Prop
  | .connect server port name =>
    let port := port.getD config.port
    Numeral.IsWritable (if port ≤ 0 then Config.defaultPort else port) ∧
      (Call.connect server port name).IsPlain
  | .send peer text => Numeral.IsWritable peer ∧ text.string?.isSome
  | .sendBytes peer _ => Numeral.IsWritable peer
  | .hangUp peer => Numeral.IsWritable peer
  | .signOut => True
  | .close => True

/-- Whether a deed stops at no fault: a call that may stop at one has to be an attempt. -/
def Deed.IsSteady (config : Config) : Deed → Prop
  | .call c => c.IsWritable config
  | .attempt _ => True
  | .refuse => False

/-- Whether the name that a deed gives, if it gives one, is a string. -/
def Deed.IsPlain : Deed → Prop
  | .call c => c.IsPlain
  | .attempt c => c.IsPlain
  | .refuse => True

/-- An observer that gives no name but strings. -/
def Observer.IsPlain (o : Observer) : Prop := ∀ m e, ∀ d ∈ o m e, d.IsPlain

/-- An observer of sessions made with settings that never refuses to go on. -/
def Observer.IsSteady (config : Config) (o : Observer) : Prop :=
  ∀ m e, m.config = config → ∀ d ∈ o m e, d.IsSteady config

namespace SessionM

open Machine

/-- A way of telling that stops at no fault and keeps everything fitting the phase. -/
def Steady (config : Config) (plain : Prop) (tell : Event → SessionM Unit) : Prop :=
  ∀ slack e m, m.Stands config plain slack →
    Ensures (tell e) m (fun _ ↦ Stands config plain slack) fun _ ↦ False

variable {config : Config} {plain : Prop} {slack : Slack} {tell : Event → SessionM Unit}
  {m : Machine} {c : CommandLink} {n : NotifyLink}

/-! ### Endings -/

/-- A session that fails is over, and everything fits that. -/
theorem stands_fail (htell : Steady config plain tell) (h : m.Tidy config) :
    Ensures (fail tell) m (fun _ ↦ Stands config plain slack) fun _ ↦ False := by
  rw [fail, ensures_bind, ensures_modify]
  exact htell slack _ _ h.reset

/-- A session that does not reach its server is over, and everything fits that. -/
theorem stands_failToConnect (htell : Steady config plain tell) (h : m.Tidy config) :
    Ensures (failToConnect tell) m (fun _ ↦ Stands config plain slack) fun _ ↦ False := by
  rw [failToConnect, ensures_bind, ensures_modify]
  exact htell slack _ _ h.reset

/-! ### Starting an exchange -/

/-- An idle command link dials its socket; where it is not dialled, nothing is in flight. -/
theorem linked_startExchange (h : m.Linked c n) (hidle : c.exchange = none) (what : Exchange)
    (request : Bytes) {Q : Bool → Machine → Prop} {E : Machine → Prop}
    (hnext : ∀ sent c' host, (m.putCommand (c', host)).Linked c' n →
      c'.exchange = (if sent then some what else none) →
      host.phaseOf n.socket = m.host.phaseOf n.socket → Q sent (m.putCommand (c', host))) :
    Ensures (startExchange what request) m Q E := by
  have hclosed := h.idle.1 hidle
  have hnotBusy : ¬ c.isBusy = true := by
    rw [CommandLink.isBusy, hidle]
    decide
  rw [ensures_startExchange_of_eq h.command, CommandLink.start, if_neg hnotBusy]
  rcases m.host.connect_cases c.socket m.session.address with ⟨hdialled, -, hmade⟩ | hrefused
  · simp only [hdialled]
    have hphase := Host.phaseOf_connecting (h := m.host) hmade m.session.address
    refine hnext true _ _ (h.putCommand rfl ?_ ?_) rfl ?_
    · rw [hphase, if_pos rfl]
      exact iff_of_false (Option.some_ne_none what) (by decide)
    · intro k hk
      rw [hphase, if_neg (Ne.symm hk)]
    · rw [hphase, if_neg h.apart]
  · simp only [hrefused]
    exact hnext false _ _ (h.putCommand rfl (iff_of_true rfl hclosed) fun _ _ ↦ rfl) rfl rfl

/-- Dialling keeps everything fitting the phase, but where the name cannot be written: then fresh
links are left. -/
theorem stands_dial (htell : Steady config plain tell) (h : m.Tidy config)
    (hunset : m.session.selfId = Peer.unsetId) (hdisarmed : m.session.retry.isArmed = false) :
    Ensures (dial tell) m (fun _ ↦ Stands config plain slack) fun after ↦
      after = m.openLinks ∧ m.session.clientName.string? = none := by
  obtain ⟨c, n, links, hidle, hconfig, hclosed, hsession⟩ := h.exists_linked_openLinks
  simp only [dial, ensures_bind, ensures_modify, ensures_get, ensures_ofRequest, ensures_ite,
    ensures_enter, ensures_pure]
  have hid : m.openLinks.session.selfId = Peer.unsetId := by
    rw [hsession]
    exact hunset
  have hretry : m.openLinks.session.retry.isArmed = false := by
    rw [hsession]
    exact hdisarmed
  have hname : m.openLinks.session.clientName = m.session.clientName := by rw [hsession]
  constructor
  · intro request hrequest
    obtain ⟨name, hstring, -⟩ := Wire.Request.exists_string?_of_signInAs hrequest
    have hwritable : m.openLinks.session.IsWritable := by
      refine ⟨?_, by rw [hstring]; rfl⟩
      rw [hid]
      exact Numeral.isWritable_of_lt (k := 1) (by decide) (by decide)
    apply linked_startExchange links hidle
    intro sent c' host links' hx hq
    constructor
    · intro hsent
      rw [hsent] at hx
      exact .linked c' n hconfig (links'.congr rfl rfl fun _ ↦ rfl)
        ⟨hwritable.id, hwritable.name⟩ ⟨hid, hq.trans (hclosed _), .inr ⟨hretry, hx⟩⟩
    · intro _
      exact (stands_failToConnect htell (links'.tidy hconfig)).of_steady
  · intro e he
    rw [hname] at he
    cases hstring : m.session.clientName.string? with
    | none => exact ⟨trivial, rfl⟩
    | some name =>
      obtain ⟨bytes, hbytes⟩ := Wire.Request.exists_encode_signInAs
        (Option.isSome_of_eq_some hstring)
      rw [hbytes] at he
      cases he

/-- Fresh links of a session that is over are left behind by a name that is not plain. -/
theorem stands_openLinks_of_over (h : m.Tidy config) (hover : m.session.IsOver)
    (hspoilt : ¬ plain) : m.openLinks.Stands config plain slack := by
  obtain ⟨c, n, links, hidle, hconfig, hclosed, hsession⟩ := h.exists_linked_openLinks
  refine .disconnected hconfig ?_ (.unused c n hspoilt links) hclosed
  rw [hsession]
  exact hover.linked _ _ hidle

/-- So are those of a session that has looked its server up. -/
theorem stands_openLinks_of_resolving (h : m.Tidy config) (hphase : m.session.phase = .resolving)
    (hunset : m.session.selfId = Peer.unsetId) (hdisarmed : m.session.retry.isArmed = false)
    (hspoilt : ¬ plain) : m.openLinks.Stands config plain slack := by
  obtain ⟨c, n, links, -, hconfig, hclosed, hsession⟩ := h.exists_linked_openLinks
  refine .resolving hconfig ?_ (.unused c n hspoilt links) ?_ ?_ (absurd · hspoilt)
    (absurd · hspoilt) hclosed
  all_goals rw [hsession]; assumption

/-! ### Calls -/

private theorem stands_startLookup (hconfig : m.config = config) (hover : m.session.IsOver)
    (hunlinked : m.Unlinked plain) (hnamed : plain → m.session.clientName.string?.isSome)
    (hclosed : ∀ k, m.host.phaseOf k = .closed) (host : String) (port : Int)
    {E : Machine → Prop} :
    Ensures (startLookup host port) (m.setPhase .resolving)
      (fun started after ↦ after.Tidy config ∧
        (started = true → after.Stands config plain slack)) E := by
  rw [ensures_startLookup]
  constructor
  · intro _
    exact ⟨⟨hconfig, fun k _ ↦ hclosed k⟩, by simp⟩
  · intro resolver hstart
    have hlooking : resolver.inFlight = true := by
      rw [Resolver.start?] at hstart
      split at hstart
      · cases hstart
        rfl
      · cases hstart
    exact ⟨⟨hconfig, fun k _ ↦ hclosed k⟩, fun _ ↦ .resolving hconfig rfl
      (hunlinked.congr rfl rfl fun _ ↦ rfl) hover.selfId hover.disarmed (fun _ ↦ hlooking) hnamed
      hclosed⟩

private theorem stands_connect (htell : Steady config plain tell) (h : m.Stands config plain slack)
    (server : Option String) (port : Option Int) (name : Option Text.Raw)
    (hplain : plain → (Call.connect server port name).IsPlain) :
    Ensures (connect tell server port name) m (fun _ ↦ Stands config plain slack) fun after ↦
      after.Stands config plain slack ∧
        ¬ (Call.connect server port name).IsWritable config := by
  simp only [connect, ensures_bind, ensures_get, ensures_ite, ensures_pure, ensures_remember,
    ensures_requireText, ensures_enter]
  refine ⟨fun _ ↦ (htell slack _ m h).of_steady, fun hfree ↦ ?_⟩
  have hphase : m.session.phase = .disconnected := by
    simp only [ne_eq, Bool.or_eq_true, decide_eq_true_eq, not_or, Decidable.not_not] at hfree
    exact hfree.1.1
  obtain ⟨hover, hunlinked, hclosed⟩ := h.isOver hphase
  have hunlinked' (address : Address) (clientName : Text.Raw) :
      Unlinked plain { m with session := { m.session with address, clientName } } :=
    hunlinked.congr rfl rfl fun _ ↦ rfl
  refine ⟨fun _ ↦ ⟨fun _ ↦ ?_, fun _ ↦ ?_⟩, fun hlong ↦ ⟨?_, ?_⟩⟩
  · refine Ensures.mono (stands_startLookup ?_ ?_ ?_ ?_ ?_ _ _)
      (fun started after hafter ↦ ⟨hafter.2, fun _ ↦ ?_⟩) fun _ ↦ id
    · exact h.hasConfig
    · exact hover.named _ _
    · exact hunlinked' _ _
    · exact fun h' ↦ (hplain h').string? m.config
    · exact hclosed
    · exact (stands_failToConnect htell hafter.1).of_steady
  · refine Ensures.mono (stands_dial htell ⟨?_, ?_⟩ ?_ ?_) (fun _ _ ↦ id) ?_
    · exact h.hasConfig
    · exact fun k _ ↦ hclosed k
    · exact hover.selfId
    · exact hover.disarmed
    · rintro _ ⟨rfl, hnone⟩
      have hgiven : ¬ (Call.connect server port name).IsPlain := fun hgiven ↦
        Option.isSome_iff_ne_none.1 (hgiven.string? m.config) hnone
      refine ⟨stands_openLinks_of_over ⟨h.hasConfig, fun k _ ↦ hclosed k⟩ (hover.named _ _)
        (mt hplain hgiven), fun hwritable ↦ hgiven hwritable.2⟩
  · exact .disconnected h.hasConfig (hover.named _ _) (hunlinked' _ _) hclosed
  · rintro ⟨hport, -⟩
    rw [← h.hasConfig, Numeral.IsWritable, hlong] at hport
    cases hport

private theorem stands_sendTo (htell : Steady config plain tell) (h : m.Stands config plain slack)
    (peer : Int) (payload : Except Wire.RequestError Bytes) :
    Ensures (sendTo tell peer payload) m (fun _ ↦ Stands config plain slack) fun after ↦
      after.Stands config plain slack ∧
        ¬ (Numeral.IsWritable peer ∧ ∃ bytes, payload = .ok bytes) := by
  simp only [sendTo, ensures_bind, ensures_get, ensures_ite, ensures_pure, ensures_requireText,
    ensures_ofRequest]
  refine ⟨fun _ ↦ h, fun hconnected ↦ ⟨fun _ ↦ ⟨fun _ ↦ h, fun hlong ↦ ⟨h, ?_⟩⟩, fun hfree ↦ ?_⟩⟩
  · rw [Numeral.IsWritable, hlong]
    exact fun hpeer ↦ absurd hpeer.1 (by decide)
  · have hphase := Decidable.not_not.1 hconnected
    obtain ⟨c, n, links, writable, harmed, hid, -, hq⟩ := h.exists_links hphase
    have hidle : c.exchange = none := by
      simp only [links.command, Option.any_some, Bool.or_eq_true, not_or, CommandLink.isBusy,
        Option.isSome_iff_ne_none, ne_eq, Decidable.not_not] at hfree
      exact hfree.2
    constructor
    · intro request _
      apply linked_startExchange links hidle
      intro sent c' host links' hx hq'
      constructor
      · intro hsent
        rw [hsent] at hx
        refine .linked c' n h.hasConfig links' ⟨writable.id, writable.name⟩ ?_
        show Session.Fits slack m.session.phase m.session.retry.isArmed m.session.selfId
          c'.exchange (host.phaseOf n.socket)
        rw [hphase, hq', hx]
        exact ⟨harmed, hid, .inr rfl, hq⟩
      · intro _
        exact (stands_fail htell (links'.tidy h.hasConfig)).of_steady
    · intro e he
      refine ⟨h, ?_⟩
      rintro ⟨hpeer, body, rfl⟩
      obtain ⟨bytes, hbytes⟩ := Wire.Request.exists_encode_message writable.id hpeer body
      have hrequest : (Wire.Request.message m.session.selfId peer body >>= Wire.Request.encode) =
          .error e := he
      rw [hbytes] at hrequest
      cases hrequest

/-- Signing out over a link at rest is on its way once it is dialled. -/
private theorem stands_startSignOut (h : m.Linked c n) (hconfig : m.config = config)
    (hidle : c.exchange = none) (hphase : m.session.phase = .signingOut)
    (hwritable : m.session.IsWritable) (hset : m.session.selfId ≠ Peer.unsetId)
    (hdisarmed : m.session.retry.isArmed = false) (hclosed : m.host.phaseOf n.socket = .closed)
    (request : Bytes) {E : Machine → Prop} :
    Ensures (startExchange .signOut request) m
      (fun sent after ↦ after.Tidy config ∧ (sent = true → after.Stands config plain .none)) E := by
  apply linked_startExchange h hidle
  intro sent c' host links hx hq
  refine ⟨links.tidy hconfig, fun hsent ↦ ?_⟩
  rw [hsent] at hx
  refine .linked c' n hconfig links ⟨hwritable.id, hwritable.name⟩ ?_
  show Session.Fits .none m.session.phase m.session.retry.isArmed m.session.selfId c'.exchange
    (host.phaseOf n.socket)
  rw [hphase]
  exact ⟨hdisarmed, hset, hx, hq.trans hclosed⟩

/-- Signing out leaves nothing outstanding: either the request is out or waits for the exchange in
flight, or the session is over. -/
theorem stands_signOut (htell : Steady config plain tell) (h : m.Stands config plain slack) :
    Ensures (signOut tell) m (fun _ ↦ Stands config plain .none) fun _ ↦ False := by
  simp only [signOut, ensures_bind, ensures_phase, ensures_ite, ensures_pure, ensures_modify,
    ensures_get, ensures_enter, ensures_ofRequest, quiet_eq, Bool.or_eq_true, decide_eq_true_eq,
    not_or]
  constructor
  · intro hout
    apply h.settle
    · intro _ hphase
      simp [hphase] at hout
    · intro _ hphase
      simp [hphase] at hout
  · rintro ⟨hdisconnected, hleaving⟩
    have htidy := h.tidy.quiet
    have hfail : m.quiet.session.selfId = Peer.unsetId →
        Ensures (fail tell) m.quiet (fun _ ↦ Stands config plain .none) fun _ ↦ False :=
      fun _ ↦ stands_fail htell htidy
    cases h with
    | disconnected _ ended => exact absurd ended.phase hdisconnected
    | resolving hconfig phase unlinked unset _ _ _ closed =>
      have hunset : m.quiet.session.selfId = Peer.unsetId := by rw [session_quiet]; exact unset
      constructor
      · intro hbusy
        rw [session_quiet] at hbusy
        obtain ⟨c, hc, hx⟩ := (Option.any_eq_true _ _).1 hbusy
        rw [CommandLink.isBusy, unlinked.exchange_eq_none hc closed] at hx
        cases hx
      · intro _
        exact ⟨hfail, fun hset ↦ absurd hunset hset⟩
    | linked c n hconfig links writable fits =>
      have hlinks := links.quiet
      have hclosed := links.phaseOf_notify_quiet
      have hid : m.quiet.session.selfId = m.session.selfId := by rw [session_quiet]
      have hwritable : m.quiet.session.IsWritable := by
        rw [session_quiet]
        exact ⟨writable.id, writable.name⟩
      have hdisarmed : m.quiet.session.retry.isArmed = false := by rw [session_quiet]; rfl
      rw [hlinks.command, Option.any_some]
      refine ⟨fun hbusy ↦ ?_, fun hidle ↦ ⟨hfail, fun hset ↦ ⟨fun request _ ↦ ?_, fun e he ↦ ?_⟩⟩⟩
      · have hpending := fits.pending hleaving (Option.isSome_iff_ne_none.1 hbusy)
        refine .linked c n.abort htidy.config (hlinks.congr rfl rfl fun _ ↦ rfl)
          ⟨hwritable.id, hwritable.name⟩ ?_
        show Session.Fits .none .signingOutPending m.quiet.session.retry.isArmed
          m.quiet.session.selfId c.exchange (m.quiet.host.phaseOf n.socket)
        rw [hdisarmed, hid, hclosed]
        exact hpending
      · have hnone : c.exchange = none := by
          simpa [CommandLink.isBusy] using hidle
        have hleft : (m.quiet.setPhase .signingOut).Linked c n.abort :=
          hlinks.congr rfl rfl fun _ ↦ rfl
        refine Ensures.mono (stands_startSignOut hleft htidy.config hnone rfl
          ⟨hwritable.id, hwritable.name⟩ hset hdisarmed hclosed request)
          (fun sent after hafter ↦ ⟨hafter.2, fun _ ↦ ?_⟩) fun _ ↦ id
        exact stands_fail htell hafter.1
      · obtain ⟨bytes, hbytes⟩ := Wire.Request.exists_encode_signOut hwritable.id
        rw [hbytes] at he
        cases he

/-- A call ends with everything fitting the phase, also where it stops at a fault; it does so only
if it gives something that cannot be written. -/
theorem stands_perform (htell : Steady config plain tell) (h : m.Stands config plain slack)
    (call : Call) (hplain : plain → call.IsPlain) :
    Ensures (perform tell call) m (fun _ ↦ Stands config plain slack) fun after ↦
      after.Stands config plain slack ∧ ¬ call.IsWritable config := by
  cases call with
  | connect server port name =>
    rw [perform, ensures_map]
    exact stands_connect htell h server port name hplain
  | send peer text =>
    rw [perform, ensures_map]
    refine (stands_sendTo htell h peer _).mono (fun _ _ ↦ id) fun _ hafter ↦ ⟨hafter.1, ?_⟩
    rintro ⟨hpeer, hstring⟩
    obtain ⟨s, hs⟩ := Option.isSome_iff_exists.1 hstring
    exact hafter.2 ⟨hpeer, _, Wire.Request.payloadOf_of_string? hs⟩
  | sendBytes peer payload =>
    rw [perform, ensures_map]
    exact (stands_sendTo htell h peer _).mono (fun _ _ ↦ id)
      fun _ hafter ↦ ⟨hafter.1, fun hpeer ↦ hafter.2 ⟨hpeer, _, rfl⟩⟩
  | hangUp peer =>
    rw [perform, ensures_map]
    exact (stands_sendTo htell h peer _).mono (fun _ _ ↦ id)
      fun _ hafter ↦ ⟨hafter.1, fun hpeer ↦ hafter.2 ⟨hpeer, _, rfl⟩⟩
  | signOut =>
    rw [perform, ensures_map]
    exact (stands_signOut htell h).mono (fun _ _ hafter ↦ hafter.mono) fun _ ↦ False.elim
  | close =>
    simp only [perform, ensures_bind, ensures_modify, ensures_pure]
    exact h.tidy.reset

/-! ### Observers -/

private theorem stands_carryOut (htell : Steady config plain tell) (h : m.Stands config plain slack)
    {deeds : List Deed} (hdeeds : ∀ d ∈ deeds, d.IsSteady config)
    (hplain : plain → ∀ d ∈ deeds, d.IsPlain) :
    Ensures (Observer.carryOut tell deeds) m (fun _ ↦ Stands config plain slack) fun _ ↦ False := by
  induction deeds generalizing m with
  | nil => exact ensures_pure.2 h
  | cons deed rest ih =>
    obtain ⟨hdeed, hrest⟩ := List.forall_mem_cons.1 hdeeds
    have hplainRest (h' : plain) : ∀ d ∈ rest, d.IsPlain :=
      (List.forall_mem_cons.1 (hplain h')).2
    have hgo (note : Note) (after : Machine) (hafter : after.Stands config plain slack) :
        Ensures (do modify (·.note note); Observer.carryOut tell rest) after
          (fun _ ↦ Stands config plain slack) fun _ ↦ False := by
      rw [ensures_bind, ensures_modify]
      exact ih (hafter.congr rfl rfl fun _ ↦ rfl) hrest hplainRest
    cases deed with
    | refuse => exact hdeed.elim
    | call c =>
      rw [Observer.carryOut, ensures_bind]
      exact (stands_perform htell h c fun h' ↦ hplain h' _ List.mem_cons_self).mono
        (fun answer ↦ hgo (.called c answer)) fun _ hafter ↦ hafter.2 hdeed
    | attempt c =>
      rw [Observer.carryOut, ensures_bind, ensures_tryCatch]
      exact (stands_perform htell h c fun h' ↦ hplain h' _ List.mem_cons_self).mono
        (fun answer ↦ hgo (.called c answer))
        fun after hafter ↦ ensures_pure.2 (hgo (.called c none) after hafter.1)

/-- An observer that never refuses keeps everything fitting the phase, to every depth. -/
theorem steady_tell {o : Observer} (ho : o.IsSteady config) (hplain : plain → o.IsPlain)
    (depth : Nat) : Steady config plain (o.tell depth) := by
  induction depth with
  | zero =>
    intro slack e m h
    simp only [Observer.tell, ensures_bind, ensures_get, ensures_ite, ensures_set, ensures_pure]
    constructor
    · intro _
      exact h.congr rfl rfl fun _ ↦ rfl
    · intro _
      exact h
  | succ depth ih =>
    intro slack e m h
    have hheard : (m.note (.heard e m.session)).Stands config plain slack :=
      h.congr rfl rfl fun _ ↦ rfl
    simp only [Observer.tell, ensures_bind, ensures_get, ensures_ite, ensures_set, ensures_pure]
    constructor
    · intro _
      exact stands_carryOut ih hheard (ho _ e hheard.hasConfig) fun h' ↦ hplain h' _ e
    · intro _
      exact h

end SessionM

end Rendezvous
