import Rendezvous.Proofs.Peer.Listing
import Rendezvous.Proofs.Session.Presence.Calls
import Rendezvous.Proofs.Session.Sound

/-!
# Reports of peers

What is reported of peers comes from the answer to signing in and from notifications. A session
reports no peer under its own id to have joined. Whoever is in its directory has not been reported
to have left, unless to have joined since.
-/

namespace Rendezvous

open SessionM IsCourse

/-! ### Logs -/

/-- Whether every report of a peer in a log is right: nobody joins under the session's own id, and a
departure is as required, given the session as it was then and what the log held before. -/
def AllRight (IsRight : Int → Session → List (LogEntry Note) → Prop) :
    List (LogEntry Note) → Prop
  | [] => True
  | .note (.heard (.peerConnected id _) s) :: earlier => id ≠ s.selfId ∧ AllRight IsRight earlier
  | .note (.heard (.peerDisconnected id) s) :: earlier =>
    IsRight id s earlier ∧ AllRight IsRight earlier
  | _ :: earlier => AllRight IsRight earlier

/-- Whether the last report of a peer in a log, if there is one, is not that it left. -/
def NotGone (id : Int) : List (LogEntry Note) → Prop
  | [] => True
  | .note (.heard (.peerConnected other _) _) :: earlier => other = id ∨ NotGone id earlier
  | .note (.heard (.peerDisconnected other) _) :: earlier => other ≠ id ∧ NotGone id earlier
  | _ :: earlier => NotGone id earlier

section Logs

variable {IsRight : Int → Session → List (LogEntry Note) → Prop} {id : Int} {name : String}
  {s : Session} {later earlier new log : List (LogEntry Note)}

/-- What passes over every line without news passes over all of them. -/
theorem append_iff {P : List (LogEntry Note) → Prop}
    (hskip : ∀ line log, (∀ e s, line = .note (.heard e s) → ¬ e.IsNews) →
      (P (line :: log) ↔ P log))
    (hnew : ∀ e s, LogEntry.note (.heard e s) ∈ new → ¬ e.IsNews) : P (new ++ log) ↔ P log := by
  induction new with
  | nil => rfl
  | cons line rest ih =>
    rw [List.cons_append, hskip line _ fun e s heq ↦ hnew e s (heq ▸ List.mem_cons_self)]
    exact ih fun e s he ↦ hnew e s (List.mem_cons_of_mem _ he)

private theorem allRight_append (hnew : ∀ e s, LogEntry.note (.heard e s) ∈ new → ¬ e.IsNews) :
    AllRight IsRight (new ++ log) ↔ AllRight IsRight log := by
  refine append_iff (fun line log hline ↦ ?_) hnew
  rcases line with a | ⟨e, s⟩ | ⟨c, answer⟩
  · rfl
  · cases e <;> first | rfl | exact absurd trivial (hline _ s rfl)
  · rfl

private theorem notGone_append (hnew : ∀ e s, LogEntry.note (.heard e s) ∈ new → ¬ e.IsNews) :
    NotGone id (new ++ log) ↔ NotGone id log := by
  refine append_iff (fun line log hline ↦ ?_) hnew
  rcases line with a | ⟨e, s⟩ | ⟨c, answer⟩
  · rfl
  · cases e <;> first | rfl | exact absurd trivial (hline _ s rfl)
  · rfl

private theorem AllRight.drop (h : AllRight IsRight (later ++ log)) : AllRight IsRight log := by
  induction later with
  | nil => exact h
  | cons line rest ih =>
    rcases line with a | ⟨e, s⟩ | ⟨c, answer⟩
    · exact ih h
    · cases e <;> first | exact ih h | exact ih h.2
    · exact ih h

/-- In a log whose reports are right, nobody joins under the session's own id. -/
theorem AllRight.join (h : AllRight IsRight
    (later ++ .note (.heard (.peerConnected id name) s) :: earlier)) : id ≠ s.selfId :=
  h.drop.1

/-- In a log whose reports are right, every departure is. -/
theorem AllRight.departure (h : AllRight IsRight
    (later ++ .note (.heard (.peerDisconnected id) s) :: earlier)) : IsRight id s earlier :=
  h.drop.1

/-- Behind the report that a peer left stands one that it joined. -/
theorem NotGone.exists_join (h : NotGone id
    (later ++ .note (.heard (.peerDisconnected id) s) :: earlier)) :
    ∃ name s, LogEntry.note (.heard (.peerConnected id name) s) ∈ later := by
  induction later with
  | nil => exact absurd rfl h.1
  | cons line rest ih =>
    have hrest (h : NotGone id (rest ++ .note (.heard (.peerDisconnected id) s) :: earlier)) :
        ∃ name s, LogEntry.note (.heard (.peerConnected id name) s) ∈ line :: rest := by
      obtain ⟨name, s, hmem⟩ := ih h
      exact ⟨name, s, List.mem_cons_of_mem _ hmem⟩
    rcases line with a | ⟨e, s'⟩ | ⟨c, answer⟩
    · exact hrest h
    · cases e with
      | peerConnected other name =>
        rcases h with rfl | h
        · exact ⟨name, s', List.mem_cons_self⟩
        · exact hrest h
      | peerDisconnected other => exact hrest h.2
      | _ => exact hrest h
    · exact hrest h

/-- Who has not been reported at all is not gone. -/
theorem notGone_of_silent (h : ∀ e s, LogEntry.note (.heard e s) ∉ log) : NotGone id log := by
  have hnone : NotGone id (log ++ []) :=
    (notGone_append fun e s he ↦ absurd he (h e s)).2 trivial
  rwa [List.append_nil] at hnone

end Logs

/-! ### The directory -/

namespace Peer.Directory

/-- Whoever is known after a listing was known before or is in the listing. -/
theorem mem_addAll {d : Directory} {entries : List Entry} {id : Int}
    (h : id ∈ (d.addAll entries).2.peers) :
    id ∈ d.peers ∨ ∃ entry ∈ (d.addAll entries).1, entry.id = id := by
  induction entries generalizing d with
  | nil => exact .inl h
  | cons entry rest ih =>
    by_cases hown : entry.id = d.selfId
    · have hskip : d.add entry.id entry.name = (false, d) := if_pos hown
      simp only [addAll, hskip] at h ⊢
      exact ih h
    · have hadd := add_of_ne hown entry.name
      simp only [addAll, hadd, if_true] at h ⊢
      rcases ih h with hid | ⟨other, hother, rfl⟩
      · rcases Std.ExtTreeMap.mem_insert.1 hid with heq | hid
        · exact .inr ⟨entry, List.mem_cons_self, Std.compare_eq_iff_eq.1 heq⟩
        · exact .inl hid
      · exact .inr ⟨other, List.mem_cons_of_mem _ hother, rfl⟩

private theorem mem_rebuild {d : Directory} {entries : List Entry} {id : Int}
    (h : id ∈ (d.rebuild entries).2.peers) : ∃ entry ∈ (d.rebuild entries).1, entry.id = id :=
  (mem_addAll h).resolve_left Std.ExtTreeMap.not_mem_empty

end Peer.Directory

/-- The peer that a notification makes a session drop, if it does: one that the server says is not
connected, or one that hangs up. -/
def Session.farewell? (s : Session) (response : Wire.Response) : Option Int :=
  if response.isOk then
    match response.peerId? with
    | none => none
    | some id =>
      if id = s.selfId then
        match Peer.Entry.read? (Text.Utf8.decodeLossy response.body) with
        | none => none
        | some entry => if entry.connected then none else some entry.id
      else if response.body = hangUpToken then some id else none
  else none

namespace Machine

variable {IsRight : Int → Session → List (LogEntry Note) → Prop} {D : Int → Prop}
  {m m' : Machine}

/-- Takes a peer out of the directory. -/
def drop (m : Machine) (id : Int) : Machine :=
  { m with session := { m.session with directory := (m.session.directory.remove id).2 } }

/-- Enters a peer into the directory, unless it has the session's own id. -/
def enroll (m : Machine) (id : Int) (name : String) : Machine :=
  { m with session := { m.session with directory := (m.session.directory.add id name).2 } }

/-- Every report of a peer was right, and without an observer there was none. -/
structure IsTold (IsRight : Int → Session → List (LogEntry Note) → Prop) (m : Machine) : Prop where
  silent : m.observed = false → ∀ e s, LogEntry.note (.heard e s) ∉ m.host.log
  right : AllRight IsRight m.host.log

/-- Whoever a connected session knows has not been reported to have left, but for some. -/
def Knows (D : Int → Prop) (m : Machine) : Prop :=
  m.session.phase = .connected → ∀ id ∈ m.session.directory.peers, D id ∨ NotGone id m.host.log

/-- What holds of a session between steps: its reports of peers were right, and it knows nobody who
was reported to have left, but for some. -/
structure IsInformed (IsRight : Int → Session → List (LogEntry Note) → Prop) (D : Int → Prop)
    (m : Machine) : Prop where
  told : m.IsTold IsRight
  knows : m.Knows D

private theorem IsTold.abides (h : m.IsTold IsRight) (habides : m.Abides m') :
    m'.IsTold IsRight := by
  obtain ⟨new, hlog, hnew⟩ := habides.told
  constructor
  · intro hobserved e s he
    rw [habides.observed] at hobserved
    rw [hlog] at he
    rcases List.mem_append.1 he with he | he
    · exact absurd ((hnew e s he).2.symm.trans hobserved) (by decide)
    · exact h.silent hobserved e s he
  · rw [hlog]
    exact (allRight_append fun e s he ↦ (hnew e s he).1).2 h.right

private theorem Knows.abides (h : m.Knows D) (habides : m.Abides m') : m'.Knows D := by
  intro hconnected id hid
  obtain ⟨hphase, -, hdirectory⟩ := habides.stays hconnected
  obtain ⟨new, hlog, hnew⟩ := habides.told
  rw [hlog, notGone_append fun e s he ↦ (hnew e s he).1]
  exact h hphase id (hdirectory ▸ hid)

/-- Exceptions may be added. -/
theorem Knows.mono {D' : Int → Prop} (h : m.Knows D) (hD : ∀ id, D id → D' id) : m.Knows D' :=
  fun hconnected id hid ↦ (h hconnected id hid).imp_left (hD id)

/-- Without news a session stays informed. -/
theorem IsInformed.abides (h : m.IsInformed IsRight D) (habides : m.Abides m') :
    m'.IsInformed IsRight D := ⟨h.told.abides habides, h.knows.abides habides⟩

/-- A session that is not connected knows nobody. -/
theorem knows_of_left (h : m.session.phase ≠ .connected) : m.Knows D :=
  fun hconnected ↦ absurd hconnected h

end Machine

namespace SessionM

open Machine

variable {IsRight : Int → Session → List (LogEntry Note) → Prop} {D : Int → Prop}
  {tell : Event → SessionM Unit} {m : Machine}

/-- What is known of the machine that a computation leaves, with an answer or at a fault. -/
theorem ensures_of_after {α : Type} {x : SessionM α} {P E : Machine → Prop} (h : P (after x m))
    (hE : ∀ m', P m' → E m') : Ensures x m (fun _ ↦ P) E :=
  (ensures_const.2 h).mono (fun _ _ ↦ id) hE

/-! ### Telling -/

/-- What is told keeps all reports right if it is one that is. -/
theorem isTold_tell (htell : Hears tell) (h : m.IsTold IsRight) {e : Event}
    (hright : AllRight IsRight (.note (.heard e m.session) :: m.host.log)) :
    (after (tell e) m).IsTold IsRight := by
  cases hobserved : m.observed with
  | true =>
    have hnoted : (m.note (.heard e m.session)).IsTold IsRight :=
      ⟨fun hnot ↦ absurd (hobserved.symm.trans hnot) (by decide), hright⟩
    exact hnoted.abides ((htell e m).1 hobserved)
  | false =>
    rw [(htell e m).2 hobserved]
    exact h

/-- Once an event is heard, nobody is known of whom it is not right. -/
theorem knows_tell (htell : Hears tell) (h : m.IsTold IsRight) {e : Event}
    (hknows : (m.note (.heard e m.session)).Knows D) : (after (tell e) m).Knows D := by
  cases hobserved : m.observed with
  | true => exact hknows.abides ((htell e m).1 hobserved)
  | false =>
    rw [(htell e m).2 hobserved]
    exact fun _ id _ ↦ .inr (notGone_of_silent (h.silent hobserved))

/-- Whatever is told, a session that is connected then goes by the same id. -/
theorem selfId_tell (htell : Hears tell) {e : Event}
    (hconnected : (after (tell e) m).session.phase = .connected) :
    (after (tell e) m).session.selfId = m.session.selfId := by
  cases hobserved : m.observed with
  | true => exact (((htell e m).1 hobserved).stays hconnected).2.1
  | false => rw [(htell e m).2 hobserved]

private theorem isTold_runs {α : Type} {x : SessionM α} (hx : Runs Abides x m)
    (h : m.IsTold IsRight) :
    (after x m).IsTold IsRight := h.abides hx

/-- A session that has failed knows nobody. -/
theorem knows_fail (htell : Hears tell) : (after (fail tell) m).Knows D := by
  apply ensures_const.1
  rw [fail, ensures_bind, ensures_modify]
  apply ensures_const.2
  have hleft : m.reset.session.phase ≠ .connected := by
    rw [m.isReset_reset.phase]
    decide
  exact (knows_of_left hleft).abides (htell.isDiscreet .disconnected m.reset id)

/-! ### Signing in -/

/-- The peers of a listing are reported one after another. The induction is on those still to be
reported: of them alone it is open whether their last report is that they left. Where a fault stops
this, the reports so far were right. -/
theorem ensures_announce (htell : Hears tell) {listed : List Peer.Entry} {own : Int}
    (hother : ∀ entry ∈ listed, entry.id ≠ own)
    (hown : m.session.phase = .connected → m.session.selfId = own) (h : m.IsTold IsRight)
    (hknows : m.Knows fun id ↦ ∃ entry ∈ listed, entry.id = id) :
    Ensures (announce tell listed) m
      (fun _ ↦ IsInformed IsRight fun _ ↦ False) (IsTold IsRight) := by
  induction listed generalizing m with
  | nil =>
    have hnobody : m.Knows fun _ ↦ False := hknows.mono (by simp)
    simp only [announce, ensures_bind, ensures_phase, ensures_ite, ensures_pure]
    refine ⟨fun _ ↦ ?_, fun _ ↦ ⟨h, hnobody⟩⟩
    exact ensures_of_after ⟨isTold_tell htell h h.right, knows_tell htell h hnobody⟩
      fun _ ↦ IsInformed.told
  | cons entry rest ih =>
    obtain ⟨hentry, hrest⟩ := List.forall_mem_cons.1 hother
    simp only [announce, ensures_bind, ensures_phase, ensures_ite, ensures_pure]
    constructor
    · intro hconnected
      have hself := hown hconnected
      have htold := isTold_tell htell h (e := .peerConnected entry.id entry.name)
        ⟨hself ▸ hentry, h.right⟩
      have hnoted : (m.note (.heard (.peerConnected entry.id entry.name) m.session)).Knows
          fun id ↦ ∃ other ∈ rest, other.id = id := by
        intro _ id hid
        rcases hknows hconnected id hid with ⟨other, hmem, rfl⟩ | hthere
        · rcases List.mem_cons.1 hmem with rfl | hmem
          · exact .inr (.inl rfl)
          · exact .inl ⟨other, hmem, rfl⟩
        · exact .inr (.inr hthere)
      refine (ensures_of_after (P := fun after ↦ after.IsTold IsRight ∧
          after.Knows (fun id ↦ ∃ other ∈ rest, other.id = id) ∧
          (after.session.phase = .connected → after.session.selfId = own))
        ⟨htold, knows_tell htell h hnoted, fun hc ↦ (selfId_tell htell hc).trans hself⟩
        fun _ ↦ And.left).mono (fun _ after hafter ↦ ?_) fun _ ↦ id
      exact ih hrest hafter.2.2 hafter.1 hafter.2.1
    · intro hleft
      exact ⟨h, knows_of_left hleft⟩

/-- The answer to signing in, as far as no fault stops the session, leaves nobody known of whom the
last report is that they left. -/
theorem ensures_acceptSignIn (htell : Hears tell) (h : m.IsTold IsRight)
    (response : Wire.Response) :
    Ensures (acceptSignIn tell response) m
      (fun _ ↦ IsInformed IsRight fun _ ↦ False) (IsTold IsRight) := by
  have hfail (m : Machine) (h : m.IsTold IsRight) :
      Ensures (fail tell) m (fun _ ↦ IsInformed IsRight fun _ ↦ False) (IsTold IsRight) :=
    ensures_of_after ⟨isTold_runs (abides_fail htell.isDiscreet) h, knows_fail htell⟩
      fun _ ↦ IsInformed.told
  rw [acceptSignIn, ensures_ite]
  refine ⟨fun _ ↦ hfail m h, fun _ ↦ ?_⟩
  cases response.peerId? with
  | none => exact hfail m h
  | some id =>
    simp only [ensures_ite, ensures_bind, ensures_get, ensures_remember]
    refine ⟨fun _ ↦ hfail m h, fun _ ↦ ?_⟩
    have hother : ∀ entry ∈ ((m.session.assign id).directory.rebuild
        (Peer.readListing response.body)).1, entry.id ≠ id := by
      intro entry hentry
      rw [Peer.Directory.rebuild, Peer.Directory.fst_addAll] at hentry
      exact of_decide_eq_true (List.mem_filter.1 hentry).2
    have hlisted : ∀ id' ∈ ((m.session.assign id).directory.rebuild
        (Peer.readListing response.body)).2.peers, ∃ entry ∈
        ((m.session.assign id).directory.rebuild (Peer.readListing response.body)).1,
        entry.id = id' := fun _ ↦ Peer.Directory.mem_rebuild
    generalize (m.session.assign id).directory.rebuild (Peer.readListing response.body) = rebuilt
      at hother hlisted ⊢
    -- Everybody in the directory is about to be reported.
    have hknows (m' : Machine) (hdirectory : m'.session.directory = rebuilt.2) :
        m'.Knows fun id ↦ ∃ entry ∈ rebuilt.1, entry.id = id :=
      fun _ id' hid ↦ .inl (hlisted id' (hdirectory ▸ hid))
    have hentered : Machine.IsTold IsRight { m with session := { m.session.assign id with
      directory := rebuilt.2, phase := .connected } } := ⟨h.silent, h.right⟩
    rw [ensures_withNotify]
    refine ⟨fun _ ↦ ⟨by simp, fun _ ↦ hfail _ hentered⟩, fun link _ ↦ ?_⟩
    have htold := hentered.abides (abides_putNotify _ (link, _)
      (m.host.asks_connect link.socket m.session.address))
    exact ⟨fun _ ↦ ensures_announce htell hother (fun _ ↦ rfl) htold (hknows _ rfl),
      fun _ ↦ hfail _ htold⟩

/-! ### Notifications -/

section Notifications

variable (htell : Hears tell) (h : m.IsInformed IsRight D)
  (hconnected : m.session.phase = .connected)

include htell h hconnected

/-- Whoever leaves is not in the directory any more when that is reported. -/
theorem told_depart (id : Int) (hright : IsRight id (m.drop id).session m.host.log) :
    (after (tell (.peerDisconnected id)) (m.drop id)).IsInformed IsRight D := by
  have hdropped : (m.drop id).IsTold IsRight := ⟨h.told.silent, h.told.right⟩
  refine ⟨isTold_tell htell hdropped ⟨hright, h.told.right⟩, knows_tell htell hdropped ?_⟩
  intro _ other hother
  obtain ⟨hne, hthere⟩ := Std.ExtTreeMap.mem_erase.1 hother
  have hne : id ≠ other := fun heq ↦ hne (Std.compare_eq_iff_eq.2 heq)
  exact (h.knows hconnected other hthere).imp_right fun hknown ↦ ⟨hne, hknown⟩

/-- Whoever is entered under another id than the session's own is reported to have joined. -/
theorem told_enroll (hown : m.session.directory.selfId = m.session.selfId) {id : Int}
    (hother : id ≠ m.session.selfId) (name : String) :
    (after (tell (.peerConnected id name)) (m.enroll id name)).IsInformed IsRight D := by
  have henrolled : (m.enroll id name).IsTold IsRight := ⟨h.told.silent, h.told.right⟩
  refine ⟨isTold_tell htell henrolled ⟨hother, h.told.right⟩, knows_tell htell henrolled ?_⟩
  intro _ known hknown
  have hinserted : known ∈ m.session.directory.peers.insert id name := by
    rwa [Machine.note, enroll, Peer.Directory.add_of_ne (hown ▸ hother)] at hknown
  rcases Std.ExtTreeMap.mem_insert.1 hinserted with heq | hthere
  · exact .inr (.inl (Std.compare_eq_iff_eq.1 heq))
  · exact (h.knows hconnected known hthere).imp_right .inr

private theorem told_applyEntry (hown : m.session.directory.selfId = m.session.selfId)
    {body : Bytes} (hright : ∀ entry, Peer.Entry.read? (Text.Utf8.decodeLossy body) = some entry →
      entry.connected = false → IsRight entry.id (m.drop entry.id).session m.host.log) :
    (after (applyEntry tell body) m).IsInformed IsRight D := by
  apply ensures_const.1
  rw [applyEntry]
  cases hread : Peer.Entry.read? (Text.Utf8.decodeLossy body) with
  | none => exact ensures_pure.2 h
  | some entry =>
    simp only [ensures_bind, ensures_get, ensures_ite, ensures_remember, ensures_pure]
    refine ⟨fun _ ↦ ?_, fun hgone ↦ ?_⟩
    · by_cases hself : entry.id = m.session.directory.selfId
      · rw [hself, Peer.Directory.add_self]
        exact ⟨by simp, fun _ ↦ h⟩
      · have hstored : (m.session.directory.add entry.id entry.name).1 = true := by
          rw [Peer.Directory.add_of_ne hself]
        exact ⟨fun _ ↦ ensures_const.2 (told_enroll htell h hconnected hown (hown ▸ hself) _),
          fun hrefused ↦ absurd hstored hrefused⟩
    · exact ensures_const.2 (told_depart htell h hconnected entry.id
        (hright entry hread (by simpa using hgone)))

private theorem told_acceptPayload {peer : Int} {payload : Bytes}
    (hright : payload = hangUpToken → IsRight peer (m.drop peer).session m.host.log) :
    (after (acceptPayload tell peer payload) m).IsInformed IsRight D := by
  apply ensures_const.1
  simp only [acceptPayload, ensures_ite, ensures_bind, ensures_remember]
  refine ⟨fun hbye ↦ ensures_const.2 (told_depart htell h hconnected peer (hright hbye)),
    fun _ ↦ ensures_const.2 ?_⟩
  exact ⟨isTold_tell htell h.told h.told.right, knows_tell htell h.told h.knows⟩

/-- A notification keeps what is known and reported right if the departure it tells of is. -/
theorem told_notified (hown : m.session.directory.selfId = m.session.selfId)
    {response : Wire.Response} (hright : ∀ id, m.session.farewell? response = some id →
      IsRight id (m.drop id).session m.host.log) :
    (after (react tell (.notifyAnswered response)) m).IsInformed IsRight D := by
  have hfail : (after (fail tell) m).IsInformed IsRight D := h.abides (abides_fail htell.isDiscreet)
  apply ensures_const.1
  simp only [react, ensures_bind, ensures_phase, hconnected, acceptNotification, ensures_ite]
  refine ⟨fun _ ↦ ensures_const.2 hfail, fun hok ↦ ?_⟩
  have hok : response.isOk = true := by simpa using hok
  cases hpeer : response.peerId? with
  | none => exact ensures_const.2 hfail
  | some id =>
    simp only [ensures_bind, ensures_get, ensures_ite]
    refine ⟨fun hself ↦ ensures_const.2 ?_, fun hother ↦ ensures_const.2 ?_⟩
    · refine told_applyEntry htell h hconnected hown fun entry hread hgone ↦ ?_
      apply hright
      simp [Session.farewell?, hok, hpeer, hself, hread, hgone]
    · refine told_acceptPayload htell h hconnected fun hbye ↦ ?_
      apply hright
      simp [Session.farewell?, hok, hpeer, hother, hbye]

end Notifications

private theorem deliverAll_cons {response : Wire.Response} {rest : List Wire.Response}
    {next : Machine} (hnotified : react tell (.notifyAnswered response) m = (.ok (), next)) :
    deliverAll tell (response :: rest) m =
      if next.session.phase = .connected then deliverAll tell rest next else (.ok false, next) := by
  rw [deliverAll, bind_apply, hnotified]
  show (if next.session.phase = .connected then deliverAll tell rest else pure false) next = _
  split <;> rfl

/-- Notifications that come together keep what is known and reported right if the departures they
tell of are, each given the session as it is when its turn comes. The induction is on the
notifications still to be brought. -/
theorem told_deliverAll (htell : Hears tell) {late : Int → Prop} {base : Machine}
    (hown : ∀ now, base.Becomes late tell now → now.session.directory.selfId = now.session.selfId)
    (hbecomes : base.Becomes late tell m) (h : m.IsInformed IsRight D)
    {responses : List Wire.Response} (hright : ∀ front response back now,
      responses = front ++ response :: back → deliverAll tell front m = (.ok true, now) →
      now.session.phase = .connected → ∀ id, now.session.farewell? response = some id →
        IsRight id (now.drop id).session now.host.log) :
    (after (deliverAll tell responses) m).IsInformed IsRight D := by
  induction responses generalizing m with
  | nil => exact h
  | cons response rest ih =>
    have hnext : (after (react tell (.notifyAnswered response)) m).IsInformed IsRight D := by
      by_cases hconnected : m.session.phase = .connected
      · exact told_notified htell h hconnected (hown m hbecomes)
          (hright [] response rest m rfl rfl hconnected)
      · exact h.abides (abides_react htell.isDiscreet (fun _ hanswer ↦ hanswer)
          fun hphase ↦ absurd hphase hconnected)
    have hbecomes : base.Becomes late tell (after (react tell (.notifyAnswered response)) m) :=
      ensures_const.1 (becomes_react hbecomes trivial)
    rcases hreact : react tell (.notifyAnswered response) m with ⟨_ | _, next⟩
    · simpa [after, deliverAll, bind_apply, hreact] using hnext
    · rw [after, hreact] at hnext hbecomes
      rw [after, deliverAll_cons hreact]
      split
      · next hconnected =>
        refine ih hbecomes hnext fun front response' back now hsplit hfront ↦ ?_
        refine hright (response :: front) response' back now (by rw [hsplit]; rfl) ?_
        rw [deliverAll_cons hreact, if_pos hconnected, hfront]
      · exact hnext

end SessionM

end Rendezvous
