import Rendezvous.Proofs.Session.Record.Calls

/-!
# Events keep the record in order

What a session does when something happens to it, as far as the record tells of it. A request is
written when its connection is there, a wait when its connection is there or responses came, and
the end of a relay is reported when the response to it is complete.
-/

namespace Rendezvous

open Wire

namespace Record

variable {config : Config} {due due' : Prop} {start m m' : Machine} {past story story' : List Entry}
  {c : CommandLink} {n n' : NotifyLink}

/-- The record of a machine after a use of the notify link. -/
theorem Kept.putNotify (h : Kept config due story m)
    (hsession : m'.session = { m.session with notify := some n' })
    (hrecorded : Recorded config story' m')
    (hattends : Attends m.host.roles (some config.maxResponseSize) due' story' n')
    (hcommand : ∀ c ∈ m.session.command,
      Serves m.host.roles (some config.maxResponseSize) story' m'.session c)
    (hnamed : due' → m.session.phase = .connected → latestId story' = some m.session.selfId)
    (hroles : m'.host.roles = m.host.roles) : Kept config due' story' m' where
  recorded := hrecorded
  command c hc := by
    rw [hsession] at hc
    rw [hroles]
    exact hcommand c hc
  notify _ hn' := by
    rw [hsession] at hn'
    cases hn'
    rw [hroles]
    exact hattends
  named hdue hphase := by
    rw [hsession] at hphase ⊢
    exact hnamed hdue hphase
  ended hphase := by
    rw [hsession] at hphase ⊢
    exact h.ended hphase

/-- Dialling the notify socket: nothing was written or received yet. -/
theorem Kept.dialNotify (h : Kept config due story m) (hn : m.session.notify = some n)
    (waiting : Bool) (address : Address) (hclosed : m.host.phaseOf n.socket = .closed)
    (hmade : n.socket < m.host.sockets.length) :
    Kept config False (.dial n.socket address :: story) (m.putNotify ({ n with waiting },
      (m.host.setPhase n.socket .connecting).ask (.connect n.socket address))) := by
  have hattends := h.notify n hn
  have hroles := (m.host.retains_setPhase n.socket .connecting).roles
  refine h.putNotify rfl ?_ ?_ ?_ (fun hdue ↦ hdue.elim) hroles
  · exact h.recorded.dial address hclosed ⟨rfl, rfl, hroles⟩ (Host.phaseOf_connecting hmade address)
  · have hphase : phaseIn n.socket (.dial n.socket address :: story) = .connecting := if_pos rfl
    refine ⟨hattends.role, hattends.bound, fun _ ↦ ?_, fun _ ↦ ?_, fun _ ↦ ?_, fun hopen ↦ ?_⟩
    · apply hattends.empty
      rw [h.recorded.phases, hclosed]
      decide
    · simp [Entry.dials]
    · simp [IsRelayed, Entry.dials]
    · cases hphase.symm.trans hopen
  · intro c hc
    exact ((h.command c hc).cons (isAside_dial (h.apart hc hn).symm address story) id
      fun _ hnow ↦ by cases hnow).congr rfl rfl rfl

/-- A wait is in place where the reading of the connection has come to the end of what was
received. -/
theorem Recorded.writeWait (h : Recorded config story m)
    (hphase : m.session.phase = .connected)
    (hcommand : ∀ c ∈ m.session.command,
      Serves m.host.roles (some config.maxResponseSize) story m.session c)
    (hrole : m.host.roles[n.socket]? = some .notify)
    (hbound : n.framer.limit = some config.maxResponseSize)
    (hopen : phaseIn n.socket story = .connected) (hopener : ¬ IsRelayed n.socket story)
    {taken : List Response}
    (hreads : Reads (some config.maxResponseSize) (stream n.socket story) n.framer taken)
    {request : Bytes} (hrequest : NotifyLink.waitBytes m.session.selfId = .ok request)
    (hlatest : latestId story = some m.session.selfId)
    (hturn : (writes n.socket story = [] ∧
        ∃ earlier, story = .event n.socket .connected :: earlier) ∨
      (writes n.socket story ≠ [] ∧ answers (some config.maxResponseSize)
        (streamAtWrite n.socket story) < answers (some config.maxResponseSize)
          (stream n.socket story))) (waiting : Bool) :
    Rests config (.write n.socket request :: story) (m.putNotify ({ n with waiting },
      m.host.ask (.send n.socket request))) := by
  refine ⟨?_, fun c hc ↦ ?_, fun n' hn' ↦ ?_, fun hdue ↦ hdue.elim, fun hended ↦ ?_⟩
  · refine h.write (.inr ⟨hrole, ⟨_, hlatest, hrequest⟩, hturn⟩) (fun _ ↦ hrequest) ⟨rfl, rfl, rfl⟩
      fun _ ↦ rfl
  · have hserves := (hcommand c hc).cons
      (isAside_write ((hcommand c hc).apart hrole).symm request story) id fun _ hnow ↦ by cases hnow
    apply Serves.rest
    exact hserves.congr rfl rfl rfl
  · cases hn'
    apply Attends.rest
    refine ⟨hrole, hbound, fun hnot ↦ absurd hopen hnot, fun hnot ↦ ?_, fun _ ↦ ?_, fun _ ↦ ?_⟩
    · cases hopen.symm.trans hnot
    · rw [isRelayed_write]
      exact hopener
    · simp [Entry.dials, Entry.written, Entry.received]
      exact ⟨taken, hreads⟩
  · cases hphase.symm.trans hended

/-- A wait that is due is in place. -/
theorem Kept.writeWait (h : Kept config True story m) (hn : m.session.notify = some n)
    (hphase : m.session.phase = .connected) {request : Bytes}
    (hrequest : NotifyLink.waitBytes m.session.selfId = .ok request)
    (hopen : m.host.phaseOf n.socket = .connected) (waiting : Bool) :
    Rests config (.write n.socket request :: story) (m.putNotify ({ n with waiting },
      m.host.ask (.send n.socket request))) := by
  have hattends := h.notify n hn
  have hconnected : phaseIn n.socket story = .connected := (h.recorded.phases _).trans hopen
  obtain ⟨hwrites, taken, hreads, hdue⟩ := hattends.reading hconnected
  refine h.recorded.writeWait hphase h.command hattends.role hattends.bound hconnected ?_ hreads
    hrequest (h.named trivial hphase) (.inr ⟨hwrites, ?_⟩) waiting
  · apply hattends.opener
    rw [hconnected]
    decide
  · rw [hreads.answers]
    exact hdue trivial

end Record

namespace SessionM

open Machine Record

variable {config : Config} {due : Prop} {tell : Event → SessionM Unit} {start m : Machine}
  {past : List Entry} {c : CommandLink} {n : NotifyLink} {E : Machine → Prop}

/-! ### Signing in, relaying and signing out -/

/-- The induction is on the peers still to be reported. -/
theorem kept_announce (htell : Tells config tell) (h : At start past (Kept config due) m)
    (listed : List Peer.Entry) :
    Ensures (announce tell listed) m (fun _ ↦ At start past (Kept config due))
      (At start past (Kept config due)) := by
  induction listed generalizing m with
  | nil =>
    simp only [announce, ensures_bind, ensures_phase, ensures_ite, ensures_pure]
    exact ⟨fun _ ↦ kept_tell htell h (by simp), fun _ ↦ h⟩
  | cons entry rest ih =>
    simp only [announce, ensures_bind, ensures_phase, ensures_ite, ensures_pure]
    exact ⟨fun _ ↦ (kept_tell htell h (by simp)).mono (fun _ _ hafter ↦ ih hafter) fun _ ↦ id,
      fun _ ↦ h⟩

/-- A session that was assigned an id while no exchange is in flight. -/
theorem kept_assign (h : At start past (Kept config False) m) (hidle : m.session.exchange? = none)
    (id : Int) (directory : Peer.Directory) (phase : Session.Phase) :
    At start past (Kept config False)
      { m with session := { m.session.assign id with directory, phase } } :=
  h.same rfl fun _ hkept ↦ hkept.idle ⟨rfl, rfl, rfl⟩ (fun _ ↦ rfl) rfl rfl hidle False.elim

/-- The answer to signing in keeps the record. -/
theorem kept_acceptSignIn (htell : Tells config tell) (h : At start past (Kept config False) m)
    (hidle : m.session.exchange? = none) (response : Response) :
    Ensures (acceptSignIn tell response) m (fun _ ↦ At start past (Kept config False))
      (At start past (Kept config False)) := by
  rw [acceptSignIn, ensures_ite]
  refine ⟨fun _ ↦ kept_fail htell h.recorded, fun _ ↦ ?_⟩
  cases response.peerId? with
  | none => exact kept_fail htell h.recorded
  | some id =>
    have hassigned := kept_assign h hidle id
      ((m.session.assign id).directory.rebuild (Peer.readListing response.body)).2 .connected
    simp only [ensures_ite, ensures_bind, ensures_get, ensures_remember, ensures_withNotify]
    refine ⟨fun _ ↦ kept_fail htell h.recorded, fun _ ↦ ⟨fun _ ↦ ⟨by simp, fun _ ↦
      kept_fail htell hassigned.recorded⟩, fun n hn ↦ ?_⟩⟩
    rcases m.host.connect_cases n.socket m.session.address with
      ⟨hdialled, hclosed, hmade⟩ | hrefused
    · have hconnect : m.host.connect n.socket (m.session.assign id).address = _ := hdialled
      simp only [hconnect]
      refine ⟨fun _ ↦ kept_announce htell ?_ _, fun hnot ↦ absurd trivial hnot⟩
      exact hassigned.line rfl fun _ hkept ↦ hkept.dialNotify hn n.waiting _ hclosed hmade
    · have hconnect : m.host.connect n.socket (m.session.assign id).address = _ := hrefused
      simp only [hconnect]
      refine ⟨by simp, fun _ ↦ kept_fail htell ?_⟩
      exact hassigned.recorded.same rfl fun _ hrecorded ↦
        hrecorded.congr ⟨rfl, rfl, rfl⟩ fun _ ↦ rfl

/-- The request to sign out follows the exchange that it waited for. -/
theorem kept_leave (htell : Tells config tell) (h : At start past (Kept config due) m) :
    Ensures (do
      if (← phase) = .signingOutPending then
        discard (signOut tell)) m (fun _ ↦ At start past (Kept config due))
      (At start past (Kept config due)) := by
  simp only [ensures_bind, ensures_phase, ensures_ite, ensures_discard, ensures_pure]
  exact ⟨fun _ ↦ kept_signOut htell h, fun _ ↦ h⟩

/-- What is not the response to a relay, or is a refusal, is followed by no report. -/
theorem kept_acceptDeferred (htell : Tells config tell) (h : At start past (Kept config False) m)
    (hidle : m.session.exchange? = none) {what : Exchange} {response : Response}
    (hother : what = .relay → response.isOk = false) :
    Ensures (acceptDeferred tell (some what) response) m
      (fun _ ↦ At start past (Kept config False)) (At start past (Kept config False)) := by
  rw [acceptDeferred, ensures_ite]
  refine ⟨fun _ ↦ kept_fail htell h.recorded, fun hok ↦ ?_⟩
  cases what with
  | signIn =>
    cases response.peerId? with
    | none => exact kept_leave htell h
    | some assigned =>
      rw [ensures_bind, ensures_remember]
      apply kept_leave htell
      exact h.same rfl fun _ hkept ↦ hkept.idle ⟨rfl, rfl, rfl⟩ (fun _ ↦ rfl) rfl rfl hidle
        False.elim
  | relay => simp [hother rfl] at hok
  | signOut => exact kept_leave htell h

/-- The response to a relay is followed by a report. -/
theorem kept_acceptDeferred_relay (htell : Tells config tell) {response : Response}
    (hok : response.isOk = true)
    (h : At start past (Kept config False) (m.note (.heard (.messageSent 0) m.session))) :
    Ensures (acceptDeferred tell (some .relay) response) m
      (fun _ ↦ At start past (Kept config False)) (At start past (Kept config False)) := by
  rw [acceptDeferred, hok]
  simp only [Bool.not_true, Bool.false_eq_true, if_false]
  rw [ensures_bind]
  exact (htell start past False _ m h).mono (fun _ _ hafter ↦ kept_leave htell hafter) fun _ ↦ id

/-- Arming the retry keeps the record. -/
theorem kept_armRetry (h : At start past (Kept config due) m) :
    Ensures armRetry m (fun _ ↦ At start past (Kept config due))
      (At start past (Kept config due)) := by
  rw [ensures_armRetry]
  refine ⟨fun _ ↦ h, fun retry _ ↦ ?_⟩
  exact h.neutral (l := .action (.schedule m.host.timers retry.delay)) trivial
    (fun _ hnow ↦ (by cases hnow)) rfl ⟨rfl, rfl, rfl⟩ (fun _ ↦ rfl) ⟨rfl, rfl, rfl, rfl, id, id⟩

/-! ### The long poll -/

private theorem kept_remember (h : At start past (Kept config due) m) (directory : Peer.Directory) :
    At start past (Kept config due) { m with session := { m.session with directory } } :=
  h.same rfl fun _ hkept ↦
    hkept.congr ⟨rfl, rfl, rfl⟩ (fun _ ↦ rfl) ⟨rfl, rfl, rfl, rfl, id, id⟩

private theorem kept_acceptNotification (htell : Tells config tell)
    (h : At start past (Kept config due) m) (response : Response) :
    Ensures (acceptNotification tell response) m (fun _ ↦ At start past (Kept config due))
      (At start past (Kept config due)) := by
  rw [acceptNotification, ensures_ite]
  refine ⟨fun _ ↦ kept_fail htell h.recorded, fun _ ↦ ?_⟩
  cases response.peerId? with
  | none => exact kept_fail htell h.recorded
  | some id =>
    simp only [ensures_bind, ensures_get, ensures_ite, acceptPayload, ensures_remember]
    refine ⟨fun _ ↦ ?_, fun _ ↦ ⟨fun _ ↦ kept_tell htell (kept_remember h _) (by simp),
      fun _ ↦ kept_tell htell h (by simp)⟩⟩
    rw [applyEntry]
    cases Peer.Entry.read? (Text.Utf8.decodeLossy response.body) with
    | none => exact ensures_pure.2 h
    | some entry =>
      simp only [ensures_bind, ensures_get, ensures_ite, ensures_remember, ensures_pure]
      exact ⟨fun _ ↦ ⟨fun _ ↦ kept_tell htell (kept_remember h _) (by simp),
        fun _ ↦ kept_remember h _⟩, fun _ ↦ kept_tell htell (kept_remember h _) (by simp)⟩

/-- The induction is on the notifications still to be brought. -/
theorem kept_deliverAll (htell : Tells config tell) (h : At start past (Kept config due) m)
    (responses : List Response) :
    Ensures (deliverAll tell responses) m (fun all after ↦ At start past (Kept config due) after ∧
      (all = true → responses ≠ [] → after.session.phase = .connected))
      (At start past (Kept config due)) := by
  induction responses generalizing m with
  | nil => exact ensures_pure.2 ⟨h, fun _ hne ↦ absurd rfl hne⟩
  | cons response rest ih =>
    have hreact : Ensures (react tell (.notifyAnswered response)) m
        (fun _ ↦ At start past (Kept config due)) (At start past (Kept config due)) := by
      rw [react, ensures_bind, ensures_phase]
      split
      all_goals try contradiction
      · next heq =>
        cases heq
        exact kept_acceptNotification htell h response
      · exact ensures_pure.2 h
    simp only [deliverAll, ensures_bind, ensures_phase, ensures_ite, ensures_pure]
    apply hreact.mono _ fun _ ↦ id
    intro _ after hafter
    refine ⟨fun hphase ↦ ?_, fun _ ↦ ⟨hafter, by simp⟩⟩
    by_cases hrest : rest = []
    · subst hrest
      exact ensures_pure.2 ⟨hafter, fun _ _ ↦ hphase⟩
    · exact (ih hafter).mono (fun _ _ hall ↦ ⟨hall.1, fun hdone _ ↦ hall.2 hdone hrest⟩) fun _ ↦ id

/-- What keeps the record ends a step at rest. -/
theorem Ensures.rests {α : Type} {x : SessionM α}
    (h : Ensures x m (fun _ ↦ At start past (Kept config due)) (At start past (Kept config due))) :
    Ensures x m (fun _ ↦ At start past (Rests config)) (At start past (Rests config)) :=
  h.mono (fun _ _ hkept ↦ hkept.imp fun _ ↦ Kept.rests) fun _ hkept ↦ hkept.imp fun _ ↦ Kept.rests

/-- A session that fails ends a step at rest. -/
theorem rests_fail (htell : Tells config tell) (h : At start past (Recorded config) m) :
    Ensures (fail tell) m (fun _ ↦ At start past (Rests config))
      (At start past (Rests config)) := by
  have hkept : Ensures (fail tell) m (fun _ ↦ At start past (Kept config False))
      (At start past (Kept config False)) := kept_fail htell h
  exact hkept.rests

/-- The next wait is written on the open connection only where it is due. -/
theorem rests_rearmWait (htell : Tells config tell) (h : At start past (Kept config True) m)
    (hphase : m.session.phase = .connected) :
    Ensures (rearmWait tell) m (fun _ ↦ At start past (Rests config))
      (At start past (Rests config)) := by
  have hrests {due : Prop} {after : Machine} (hkept : At start past (Kept config due) after) :
      At start past (Rests config) after := hkept.imp fun _ ↦ Kept.rests
  simp only [rearmWait, ensures_bind, ensures_get, ensures_withNotify, ensures_ofRequest,
    ensures_ite, ensures_pure]
  refine ⟨fun _ ↦ ⟨fun _ _ ↦ ⟨fun _ ↦ rests_fail htell h.recorded, fun _ ↦ hrests h⟩,
    fun _ _ ↦ hrests h⟩, fun n hn ↦ ?_⟩
  have hput (waiting : Bool) :
      At start past (Kept config True) (m.putNotify ({ n with waiting }, m.host)) := by
    refine h.same rfl fun story hkept ↦ ?_
    have hattends := hkept.notify n hn
    refine hkept.putNotify rfl ?_ ?_ ?_ hkept.named rfl
    · exact hkept.recorded.congr ⟨rfl, rfl, rfl⟩ fun _ ↦ rfl
    · exact ⟨hattends.role, hattends.bound, hattends.empty, hattends.fresh, hattends.opener,
        hattends.reading⟩
    · exact fun c hc ↦ (hkept.command c hc).congr rfl rfl rfl
  rw [NotifyLink.rearm]
  split
  · rcases m.host.connect_cases n.socket m.session.address with
      ⟨hdialled, hclosed, hmade⟩ | hrefused
    · simp only [hdialled]
      have hdial : At start past (Kept config False) (m.putNotify _) :=
        h.line rfl fun _ hkept ↦ (hkept.weaken False.elim).dialNotify hn false m.session.address
          hclosed hmade
      exact ⟨fun _ _ ↦ ⟨fun _ ↦ rests_fail htell hdial.recorded, fun _ ↦ hrests hdial⟩, by simp⟩
    · simp only [hrefused]
      have hleft := hput false
      exact ⟨fun _ _ ↦ ⟨fun _ ↦ rests_fail htell hleft.recorded, fun _ ↦ hrests hleft⟩, by simp⟩
  · rw [NotifyLink.issueWait]
    cases hrequest : NotifyLink.waitBytes m.session.selfId with
    | error e =>
      have hleft := hput n.waiting
      exact ⟨by simp, fun _ _ ↦ hrests hleft⟩
    | ok request =>
      rcases m.host.send_cases n.socket request with ⟨hsent, hopen⟩ | hrefused
      · simp only [hsent]
        have hwritten : At start past (Rests config) (m.putNotify _) :=
          h.line rfl fun _ hkept ↦ hkept.writeWait hn hphase hrequest hopen true
        refine ⟨fun sent heq ↦ ⟨fun hnot ↦ ?_, fun _ ↦ hwritten⟩, by simp⟩
        cases heq
        cases hnot
      · simp only [hrefused]
        have hleft := hput false
        exact ⟨fun _ _ ↦ ⟨fun _ ↦ rests_fail htell hleft.recorded, fun _ ↦ hrests hleft⟩, by simp⟩

end SessionM

end Rendezvous
