import Rendezvous.Proofs.Session.Logic
import Rendezvous.Proofs.Session.Machine

/-!
# Events come at the right time

Whatever happens to a session and whatever its observer does when it is told, the observer hears of
every event in a state of the session that the event belongs to. Peers, payloads and the end of
signing in are heard of while the session is connected only, so that an observer that leaves hears
nothing more of the listing or the notifications that were being gone through.
-/

namespace Rendezvous

/-- Whether an event is news that only a connected session has. -/
def Event.IsNews : Event → Prop
  | .signedIn => True
  | .peerConnected _ _ => True
  | .peerDisconnected _ => True
  | .message _ _ => True
  | _ => False

/-- Whether a session is in a state that an event belongs to. -/
def Event.Fits (s : Session) : Event → Prop
  | .messageSent _ => s.phase = .connected ∨ s.phase = .signingOutPending
  | .disconnected => s.IsReset
  | .connectionFailure => True
  | _ => s.phase = .connected

/-- Whether a call is one to leave the server. -/
def Call.IsLeave : Call → Prop
  | .signOut => True
  | .close => True
  | _ => False

/-- Whether a note shows that the session is not connected any more: an event was heard in another
phase, or a call to leave is over. -/
def Note.ShowsLeave : Note → Prop
  | .heard _ s => s.phase ≠ .connected
  | .called c _ => c.IsLeave

/-- Whether a note of a log shows that the session is not connected any more. -/
def HasLeft (log : List (LogEntry Note)) : Prop := ∃ n : Note, n.ShowsLeave ∧ .note n ∈ log

/-- Every event of a log, newest line first, fits the session as it was then, and no news comes
after a call to leave. -/
def IsTimely : List (LogEntry Note) → Prop
  | [] => True
  | .note (.heard e s) :: earlier => e.Fits s ∧ (e.IsNews → ¬ HasLeft earlier) ∧ IsTimely earlier
  | .note (.called _ _) :: earlier => IsTimely earlier
  | .action _ :: earlier => IsTimely earlier

private theorem Event.phase_of_fits {e : Event} {s : Session} (hnews : e.IsNews) (h : e.Fits s) :
    s.phase = .connected := by
  cases e <;> first | exact h | exact hnews.elim

private theorem hasLeft_append_actions (asked : List Action) (log : List (LogEntry Note)) :
    HasLeft (asked.map .action ++ log) ↔ HasLeft log := by
  simp [HasLeft]

private theorem hasLeft_cons_note (n : Note) (log : List (LogEntry Note)) :
    HasLeft (.note n :: log) ↔ n.ShowsLeave ∨ HasLeft log := by
  simp only [HasLeft, List.mem_cons, LogEntry.note.injEq]
  constructor
  · rintro ⟨n', hleave, rfl | hmem⟩
    · exact .inl hleave
    · exact .inr ⟨n', hleave, hmem⟩
  · rintro (hleave | ⟨n', hleave, hmem⟩)
    · exact ⟨n, hleave, .inl rfl⟩
    · exact ⟨n', hleave, .inr hmem⟩

private theorem isTimely_append_actions (asked : List Action) (log : List (LogEntry Note)) :
    IsTimely (asked.map .action ++ log) ↔ IsTimely log := by
  induction asked with
  | nil => rfl
  | cons a rest ih => exact ih

private theorem IsTimely.of_append {later earlier : List (LogEntry Note)} {e : Event} {s : Session}
    (h : IsTimely (later ++ .note (.heard e s) :: earlier)) :
    e.Fits s ∧ (e.IsNews → ¬ HasLeft earlier) := by
  induction later with
  | nil => exact ⟨h.1, h.2.1⟩
  | cons line rest ih =>
    cases line with
    | action a => exact ih h
    | note n =>
      cases n with
      | called c answer => exact ih h
      | heard e s => exact ih h.2.2

namespace Machine

/-- What was added to a log is timely, and a session that has left since is not connected. -/
def Minds (base : List (LogEntry Note)) (m : Machine) : Prop :=
  ∃ new, m.host.log = new ++ base ∧ IsTimely new ∧ (HasLeft new → m.session.phase ≠ .connected)

/-- Nothing but requests was added to a log. -/
def Untold (base : List (LogEntry Note)) (m : Machine) : Prop :=
  ∃ asked : List Action, m.host.log = asked.map .action ++ base

/-- What calls do, and so what an observer may do when it is told: the additions to the log stay
timely, and a session that is not connected stays so. -/
structure Follows (base : List (LogEntry Note)) (before after : Machine) : Prop where
  minds : after.Minds base
  stays : after.session.phase = .connected → before.session.phase = .connected

variable {base : List (LogEntry Note)} {m m' m'' : Machine}

private theorem Minds.of_asks (h : m.Minds base) (hasks : m.host.Asks m'.host)
    (hphase : m'.session.phase = .connected → m.session.phase = .connected) : m'.Minds base := by
  obtain ⟨new, hlog, htimely, hleft⟩ := h
  obtain ⟨asked, hasked⟩ := hasks
  refine ⟨asked.map .action ++ new, ?_, (isTimely_append_actions asked new).2 htimely, ?_⟩
  · rw [hasked, hlog, List.append_assoc]
  · intro hnew hconnected
    exact hleft ((hasLeft_append_actions asked new).1 hnew) (hphase hconnected)

/-- Nothing was told since the log was as it is. -/
theorem Untold.refl (m : Machine) : m.Untold m.host.log := ⟨[], rfl⟩

private theorem Untold.of_asks (h : m.Untold base) (hasks : m.host.Asks m'.host) :
    m'.Untold base := by
  obtain ⟨first, hfirst⟩ := h
  obtain ⟨second, hsecond⟩ := hasks
  exact ⟨second ++ first, by rw [hsecond, hfirst, List.map_append, List.append_assoc]⟩

/-- Where nothing was told nothing was told out of time. -/
theorem Untold.minds (h : m.Untold base) : m.Minds base := by
  obtain ⟨asked, hasked⟩ := h
  have htimely : IsTimely (asked.map .action ++ []) := (isTimely_append_actions asked []).2 trivial
  refine ⟨asked.map .action ++ [], ?_, htimely, ?_⟩
  · rw [hasked, List.append_nil]
  · intro hleft
    obtain ⟨n, -, hmem⟩ := (hasLeft_append_actions _ _).1 hleft
    cases hmem

private theorem Minds.follows (h : m.Minds base) (hasks : m.host.Asks m'.host)
    (hphase : m'.session.phase = .connected → m.session.phase = .connected) :
    m.Follows base m' := ⟨h.of_asks hasks hphase, hphase⟩

/-- Entering another phase than that of a connected session leaves it. -/
theorem Minds.setPhase (h : m.Minds base) {p : Session.Phase} (hp : p ≠ .connected) :
    m.Follows base (m.setPhase p) :=
  h.follows (.refl _) fun hconnected ↦ absurd hconnected hp

private theorem Minds.follows_self (h : m.Minds base) : m.Follows base m := ⟨h, id⟩

private theorem Follows.trans (h : m.Follows base m') (h' : m'.Follows base m'') :
    m.Follows base m'' :=
  ⟨h'.minds, fun hconnected ↦ h.stays (h'.stays hconnected)⟩

/-- A note that is timely and leaves the session connected only if it shows so. -/
theorem Minds.note (h : m.Minds base) {n : Note}
    (hheard : ∀ e s, n = .heard e s → e.Fits s ∧ (e.IsNews → m.session.phase = .connected))
    (hleave : n.ShowsLeave → m.session.phase ≠ .connected) : (m.note n).Minds base := by
  obtain ⟨new, hlog, htimely, hleft⟩ := h
  refine ⟨.note n :: new, congrArg _ hlog, ?_, ?_⟩
  · cases n with
    | called c a => exact htimely
    | heard e s =>
      obtain ⟨hfits, hconnected⟩ := hheard e s rfl
      exact ⟨hfits, fun hnews hnew ↦ hleft hnew (hconnected hnews), htimely⟩
  · intro hnew
    exact ((hasLeft_cons_note n new).1 hnew).elim hleave hleft

/-- An event that fits is heard in time. -/
theorem Minds.heard (h : m.Minds base) {e : Event} (hfits : e.Fits m.session) :
    (m.note (.heard e m.session)).Minds base := by
  apply h.note _ id
  intro e' s heq
  cases heq
  exact ⟨hfits, fun hnews ↦ e.phase_of_fits hnews hfits⟩

/-- The answer to a call is noted in time, if a call to leave has done so. -/
theorem Minds.called (h : m.Minds base) {c : Call} {a : Option Bool}
    (hc : c.IsLeave → m.session.phase ≠ .connected) : (m.note (.called c a)).Minds base :=
  h.note (fun _ _ heq ↦ by cases heq) hc

end Machine

namespace SessionM

open Machine

/-- A way of telling that keeps to the rules: told of an event that fits, the observer does no more
than calls do. -/
def Heeds (base : List (LogEntry Note)) (tell : Event → SessionM Unit) : Prop :=
  ∀ e m, m.Minds base → e.Fits m.session →
    Ensures (tell e) m (fun _ ↦ m.Follows base) (m.Follows base)

variable {base : List (LogEntry Note)} {tell : Event → SessionM Unit} {m : Machine} {α : Type}

/-- What goes on in time leaves the log timely. -/
theorem Ensures.minds {x : SessionM α} {before : Machine}
    (h : Ensures x m (fun _ ↦ before.Follows base) (before.Follows base)) :
    Ensures x m (fun _ ↦ Minds base) (Minds base) :=
  h.mono (fun _ _ hafter ↦ hafter.minds) (fun _ hafter ↦ hafter.minds)

private theorem Ensures.follows {x : SessionM α} {m' : Machine} (h' : m.Follows base m')
    (h : Ensures x m' (fun _ ↦ m'.Follows base) (m'.Follows base)) :
    Ensures x m' (fun _ ↦ m.Follows base) (m.Follows base) :=
  h.mono (fun _ _ hafter ↦ h'.trans hafter) (fun _ hafter ↦ h'.trans hafter)

/-! ### Calls -/

/-- Where the session ends, it has left whatever the observer does. -/
theorem follows_end {e : Event} (htell : Heeds base tell) (h : m.Minds base)
    (hfits : e.Fits m.reset.session) :
    Ensures (do modify Machine.reset; tell e) m
      (fun _ after ↦ m.Follows base after ∧ after.session.phase ≠ .connected)
      (fun after ↦ m.Follows base after ∧ after.session.phase ≠ .connected) := by
  have hphase : m.reset.session.phase ≠ .connected := by
    rw [m.isReset_reset.phase]
    decide
  have hreset : m.Follows base m.reset :=
    h.follows m.asks_reset fun hconnected ↦ absurd hconnected hphase
  have hafter (after : Machine) (hafter : m.reset.Follows base after) :
      m.Follows base after ∧ after.session.phase ≠ .connected :=
    ⟨hreset.trans hafter, fun hconnected ↦ hphase (hafter.stays hconnected)⟩
  rw [ensures_bind, ensures_modify]
  exact (htell e _ hreset.minds hfits).mono (fun _ ↦ hafter) hafter

private theorem follows_fail (htell : Heeds base tell) (h : m.Minds base) :
    Ensures (fail tell) m (fun _ ↦ m.Follows base) (m.Follows base) :=
  (follows_end (e := .disconnected) htell h m.isReset_reset).mono (fun _ _ hafter ↦ hafter.1)
    fun _ hafter ↦ hafter.1

private theorem follows_failToConnect (htell : Heeds base tell) (h : m.Minds base) :
    Ensures (failToConnect tell) m (fun _ ↦ m.Follows base) (m.Follows base) :=
  (follows_end (e := .connectionFailure) htell h trivial).mono (fun _ _ hafter ↦ hafter.1)
    fun _ hafter ↦ hafter.1

private theorem follows_startExchange (h : m.Minds base) (what : Exchange) (request : Bytes) :
    Ensures (startExchange what request) m (fun _ ↦ m.Follows base) (m.Follows base) := by
  rw [ensures_startExchange]
  constructor
  · intro _
    exact h.follows_self
  · intro link _
    exact h.follows (link.asks_start _ _ _ _) id

private theorem follows_startLookup (h : m.Minds base) (host : String) (port : Int) :
    Ensures (startLookup host port) m (fun _ ↦ m.Follows base) (m.Follows base) := by
  rw [ensures_startLookup]
  constructor
  · intro _
    exact h.follows_self
  · intro resolver _
    exact h.follows (Host.asks_ask _ _) id

/-- Dialling goes on in time. -/
theorem follows_dial (htell : Heeds base tell) (h : m.Minds base) :
    Ensures (dial tell) m (fun _ ↦ m.Follows base) (m.Follows base) := by
  have hopened : m.Follows base m.openLinks := by
    apply h.follows m.asks_openLinks
    rw [m.session_openLinks]
    exact id
  simp only [dial, ensures_bind, ensures_modify, ensures_get, ensures_ofRequest, ensures_ite,
    ensures_enter, ensures_pure]
  constructor
  · intro request _
    apply (Ensures.follows hopened (follows_startExchange hopened.minds _ _)).mono _ fun _ ↦ id
    intro sent after hafter
    constructor
    · intro _
      exact hafter.trans (hafter.minds.setPhase (by decide))
    · intro _
      exact Ensures.follows hafter (follows_failToConnect htell hafter.minds)
  · intro _ _
    exact hopened

private theorem follows_connect (htell : Heeds base tell) (h : m.Minds base)
    (server : Option String) (port : Option Int) (name : Option Text.Raw) :
    Ensures (connect tell server port name) m (fun _ ↦ m.Follows base) (m.Follows base) := by
  simp only [connect, ensures_bind, ensures_get, ensures_ite, ensures_pure, ensures_remember,
    ensures_requireText, ensures_enter]
  have hnamed (s : Session) (hs : s.phase = m.session.phase) :
      m.Follows base { m with session := s } :=
    h.follows (.refl _) fun hconnected ↦ hs ▸ hconnected
  have hlooking (s : Session) (hs : s.phase = m.session.phase) (host : String) (port : Int) :
      Ensures (startLookup host port) (Machine.setPhase { m with session := s } .resolving)
        (fun _ ↦ m.Follows base) (m.Follows base) := by
    have hresolving : m.Follows base (Machine.setPhase { m with session := s } .resolving) :=
      (hnamed s hs).trans ((hnamed s hs).minds.setPhase (by decide))
    exact Ensures.follows hresolving (follows_startLookup hresolving.minds host port)
  constructor
  · intro _
    exact htell .connectionFailure m h trivial
  · refine fun _ ↦ ⟨fun _ ↦ ⟨fun _ ↦ ?_, fun _ ↦ ?_⟩, fun _ ↦ hnamed _ rfl⟩
    · refine Ensures.mono (hlooking _ ?_ _ _) ?_ fun _ ↦ id
      · rfl
      · intro started after hafter
        refine ⟨fun _ ↦ hafter, fun _ ↦ ?_⟩
        exact Ensures.follows hafter (follows_failToConnect htell hafter.minds)
    · exact Ensures.follows (hnamed _ rfl) (follows_dial htell (hnamed _ rfl).minds)

private theorem follows_sendTo (htell : Heeds base tell) (h : m.Minds base) (peer : Int)
    (payload : Except Wire.RequestError Bytes) :
    Ensures (sendTo tell peer payload) m (fun _ ↦ m.Follows base) (m.Follows base) := by
  simp only [sendTo, ensures_bind, ensures_get, ensures_ite, ensures_pure, ensures_requireText,
    ensures_ofRequest]
  refine ⟨fun _ ↦ h.follows_self, fun _ ↦ ⟨fun _ ↦ ?_, fun _ ↦ ⟨fun request _ ↦ ?_, fun _ _ ↦ ?_⟩⟩⟩
  · exact ⟨fun _ ↦ h.follows_self, fun _ ↦ h.follows_self⟩
  · apply (follows_startExchange h .relay request).mono _ fun _ ↦ id
    intro sent after hafter
    refine ⟨fun _ ↦ hafter, fun _ ↦ ?_⟩
    exact Ensures.follows hafter (follows_fail htell hafter.minds)
  · exact h.follows_self

/-- Signing out leaves whatever comes of it. -/
theorem follows_signOut (htell : Heeds base tell) (h : m.Minds base) :
    Ensures (signOut tell) m
      (fun _ after ↦ m.Follows base after ∧ after.session.phase ≠ .connected)
      (fun after ↦ m.Follows base after ∧ after.session.phase ≠ .connected) := by
  have hquiet : m.Follows base m.quiet := by
    apply h.follows m.asks_quiet
    rw [session_quiet]
    exact id
  have hfail (m' : Machine) (h' : m.Follows base m') :
      Ensures (fail tell) m'
        (fun _ after ↦ m.Follows base after ∧ after.session.phase ≠ .connected)
        (fun after ↦ m.Follows base after ∧ after.session.phase ≠ .connected) :=
    (follows_end (e := .disconnected) htell h'.minds m'.isReset_reset).mono
      (fun _ _ hafter ↦ ⟨h'.trans hafter.1, hafter.2⟩)
      (fun _ hafter ↦ ⟨h'.trans hafter.1, hafter.2⟩)
  have hleft {p : Session.Phase} (hp : p ≠ .connected) :
      m.Follows base (m.quiet.setPhase p) ∧ (m.quiet.setPhase p).session.phase ≠ .connected :=
    ⟨hquiet.trans (hquiet.minds.setPhase hp), hp⟩
  have hleaving := (hleft (p := .signingOut) (by decide)).1
  have hgone (after : Machine) (hafter : (m.quiet.setPhase .signingOut).Follows base after) :
      m.Follows base after ∧ after.session.phase ≠ .connected := by
    constructor
    · exact hleaving.trans hafter
    · intro hconnected
      cases hafter.stays hconnected
  simp only [signOut, ensures_bind, ensures_phase, ensures_ite, ensures_pure, ensures_modify,
    ensures_get, ensures_enter, ensures_ofRequest, quiet_eq]
  refine ⟨fun hout ↦ ⟨h.follows_self, ?_⟩, fun _ ↦ ⟨fun _ ↦ ?_, fun _ ↦ ⟨fun _ ↦ ?_, fun _ ↦
    ⟨fun request _ ↦ ?_, fun _ _ ↦ ?_⟩⟩⟩⟩
  · intro hconnected
    simp [hconnected] at hout
  · exact hleft (by decide)
  · exact hfail _ hquiet
  · apply (follows_startExchange hleaving.minds .signOut request).mono _ hgone
    intro sent after hafter
    constructor
    · intro _
      exact hgone after hafter
    · intro _
      exact hfail after (hleaving.trans hafter)
  · exact hleft (by decide)

/-- Of a call that is not one to leave, no more is asked. -/
theorem Ensures.unlessLeave {x : SessionM α} {c : Call}
    (h : Ensures x m (fun _ ↦ m.Follows base) (m.Follows base)) (hc : ¬ c.IsLeave) :
    Ensures x m
      (fun _ after ↦ m.Follows base after ∧ (c.IsLeave → after.session.phase ≠ .connected))
      (fun after ↦ m.Follows base after ∧ (c.IsLeave → after.session.phase ≠ .connected)) :=
  h.mono (fun _ _ hafter ↦ ⟨hafter, fun hleave ↦ absurd hleave hc⟩)
    fun _ hafter ↦ ⟨hafter, fun hleave ↦ absurd hleave hc⟩

/-- Whatever a call comes to, the log stays timely, and after a call to leave the session is not
connected. -/
theorem follows_perform (htell : Heeds base tell) (h : m.Minds base) (c : Call) :
    Ensures (perform tell c) m
      (fun _ after ↦ m.Follows base after ∧ (c.IsLeave → after.session.phase ≠ .connected))
      (fun after ↦ m.Follows base after ∧ (c.IsLeave → after.session.phase ≠ .connected)) := by
  cases c with
  | connect server port name =>
    rw [perform, ensures_map]
    exact (follows_connect htell h server port name).unlessLeave id
  | send peer text =>
    rw [perform, ensures_map]
    exact (follows_sendTo htell h peer _).unlessLeave id
  | sendBytes peer payload =>
    rw [perform, ensures_map]
    exact (follows_sendTo htell h peer _).unlessLeave id
  | hangUp peer =>
    rw [perform, ensures_map]
    exact (follows_sendTo htell h peer _).unlessLeave id
  | signOut =>
    rw [perform, ensures_map]
    exact (follows_signOut htell h).mono (fun _ _ hafter ↦ ⟨hafter.1, fun _ ↦ hafter.2⟩)
      fun _ hafter ↦ ⟨hafter.1, fun _ ↦ hafter.2⟩
  | close =>
    have hphase : m.reset.session.phase ≠ .connected := by
      rw [m.isReset_reset.phase]
      decide
    simp only [perform, ensures_bind, ensures_modify, ensures_pure]
    exact ⟨h.follows m.asks_reset fun hconnected ↦ absurd hconnected hphase, fun _ ↦ hphase⟩

/-! ### Outcomes -/

private theorem minds_fail (htell : Heeds base tell) (h : m.Minds base) :
    Ensures (fail tell) m (fun _ ↦ Minds base) (Minds base) :=
  (follows_fail htell h).minds

private theorem asks_withCommand {absent : α}
    {f : CommandLink → Host Note → α × CommandLink × Host Note}
    {E : Machine → Prop} (hf : ∀ link (host : Host Note), host.Asks (f link host).2.2) :
    Ensures (withCommand absent f) m
      (fun _ after ↦ m.host.Asks after.host ∧ after.session.phase = m.session.phase) E := by
  rw [ensures_withCommand]
  exact ⟨fun _ ↦ ⟨.refl _, rfl⟩, fun link _ ↦ ⟨hf link _, rfl⟩⟩

private theorem asks_withNotify {absent : α}
    {f : NotifyLink → Host Note → α × NotifyLink × Host Note}
    {E : Machine → Prop} (hf : ∀ link (host : Host Note), host.Asks (f link host).2.2) :
    Ensures (withNotify absent f) m
      (fun _ after ↦ m.host.Asks after.host ∧ after.session.phase = m.session.phase) E := by
  rw [ensures_withNotify]
  exact ⟨fun _ ↦ ⟨.refl _, rfl⟩, fun link _ ↦ ⟨hf link _, rfl⟩⟩

private theorem minds_writeRequest (htell : Heeds base tell) (h : m.Minds base) :
    Ensures (writeRequest tell) m (fun _ ↦ Minds base) (Minds base) := by
  rw [writeRequest, ensures_bind]
  refine (asks_withCommand CommandLink.asks_flush).mono (fun flushed after hafter ↦ ?_) fun _ ↦ id
  have hminds := h.of_asks hafter.1 fun hconnected ↦ hafter.2 ▸ hconnected
  cases flushed with
  | failed => exact minds_fail htell hminds
  | idle => exact ensures_pure.2 hminds
  | written size => exact ensures_pure.2 hminds

/-- The induction is on the peers still to be reported: each report may end the session. -/
theorem minds_announce (htell : Heeds base tell) (h : m.Minds base) (listed : List Peer.Entry) :
    Ensures (announce tell listed) m (fun _ ↦ Minds base) (Minds base) := by
  induction listed generalizing m with
  | nil =>
    simp only [announce, ensures_bind, ensures_phase, ensures_ite, ensures_pure]
    exact ⟨fun hconnected ↦ (htell .signedIn m h hconnected).minds, fun _ ↦ h⟩
  | cons entry rest ih =>
    simp only [announce, ensures_bind, ensures_phase, ensures_ite, ensures_pure]
    refine ⟨fun hconnected ↦ ?_, fun _ ↦ h⟩
    exact (htell (.peerConnected entry.id entry.name) m h hconnected).minds.mono
      (fun _ _ hafter ↦ ih hafter) fun _ hafter ↦ hafter

private theorem minds_acceptSignIn (htell : Heeds base tell) (h : m.Untold base)
    (response : Wire.Response) :
    Ensures (acceptSignIn tell response) m (fun _ ↦ Minds base) (Minds base) := by
  rw [acceptSignIn, ensures_ite]
  refine ⟨fun _ ↦ minds_fail htell h.minds, fun _ ↦ ?_⟩
  cases response.peerId? with
  | none => exact minds_fail htell h.minds
  | some id =>
    simp only [ensures_ite, ensures_bind, ensures_get, ensures_remember]
    refine ⟨fun _ ↦ minds_fail htell h.minds, fun _ ↦ ?_⟩
    -- Nothing was heard in this step, so that the session may become connected.
    have hsigned (s : Session) : Untold base { m with session := s } := h.of_asks (.refl _)
    refine Ensures.mono (asks_withNotify fun link host ↦ host.asks_connect link.socket _)
      (fun dialled after hafter ↦ ?_) fun _ hafter ↦ hafter
    have hminds := ((hsigned _).of_asks hafter.1).minds
    exact ⟨fun _ ↦ minds_announce htell hminds _, fun _ ↦ minds_fail htell hminds⟩

private theorem minds_acceptRelay (htell : Heeds base tell) (h : m.Minds base)
    (hphase : m.session.phase = .connected) (response : Wire.Response) :
    Ensures (acceptRelay tell response) m (fun _ ↦ Minds base) (Minds base) := by
  rw [acceptRelay, ensures_ite]
  exact ⟨fun _ ↦ (htell (.messageSent 0) m h (.inl hphase)).minds, fun _ ↦ minds_fail htell h⟩

private theorem minds_acceptDeferred (htell : Heeds base tell) (h : m.Minds base)
    (hphase : m.session.phase = .signingOutPending) (what : Option Exchange)
    (response : Wire.Response) :
    Ensures (acceptDeferred tell what response) m (fun _ ↦ Minds base) (Minds base) := by
  have hrest (m' : Machine) (h' : m'.Minds base) :
      Ensures (do
        if (← phase) = .signingOutPending then
          discard (signOut tell)) m' (fun _ ↦ Minds base) (Minds base) := by
    simp only [ensures_bind, ensures_phase, ensures_ite, ensures_discard, ensures_pure]
    exact ⟨fun _ ↦ (follows_signOut htell h').mono (fun _ _ hafter ↦ hafter.1.minds)
      fun _ hafter ↦ hafter.1.minds, fun _ ↦ h'⟩
  rw [acceptDeferred, ensures_ite]
  refine ⟨fun _ ↦ minds_fail htell h, fun _ ↦ ?_⟩
  rcases what with _ | _ | _ | _
  · exact hrest m h
  · cases response.peerId? with
    | none => exact hrest m h
    | some assigned =>
      rw [ensures_bind, ensures_remember]
      exact hrest _ (h.of_asks (.refl _) id)
  · rw [ensures_bind]
    exact (htell (.messageSent 0) m h (.inr hphase)).minds.mono (fun _ ↦ hrest) fun _ ↦ id
  · exact hrest m h

private theorem minds_applyEntry (htell : Heeds base tell) (h : m.Minds base)
    (hphase : m.session.phase = .connected) (body : Bytes) :
    Ensures (applyEntry tell body) m (fun _ ↦ Minds base) (Minds base) := by
  have hstored (directory : Peer.Directory) :
      Minds base { m with session := { m.session with directory } } := h.of_asks (.refl _) id
  have hnews (e : Event) (directory : Peer.Directory)
      (hfits : ∀ s : Session, s.phase = .connected → e.Fits s) :
      Ensures (tell e) { m with session := { m.session with directory } } (fun _ ↦ Minds base)
        (Minds base) := (htell e _ (hstored directory) (hfits _ hphase)).minds
  rw [applyEntry]
  cases Peer.Entry.read? (Text.Utf8.decodeLossy body) with
  | none => exact ensures_pure.2 h
  | some entry =>
    simp only [ensures_bind, ensures_get, ensures_ite, ensures_remember, ensures_pure]
    refine ⟨fun _ ↦ ⟨fun _ ↦ ?_, fun _ ↦ hstored _⟩, fun _ ↦ ?_⟩
    · exact hnews (.peerConnected _ _) _ fun _ ↦ id
    · exact hnews (.peerDisconnected _) _ fun _ ↦ id

private theorem minds_acceptPayload (htell : Heeds base tell) (h : m.Minds base)
    (hphase : m.session.phase = .connected) (peer : Int) (payload : Bytes) :
    Ensures (acceptPayload tell peer payload) m (fun _ ↦ Minds base) (Minds base) := by
  have hdropped : Minds base { m with
      session := { m.session with directory := (m.session.directory.remove peer).2 } } :=
    h.of_asks (.refl _) id
  simp only [acceptPayload, ensures_ite, ensures_bind, ensures_remember]
  exact ⟨fun _ ↦ (htell (.peerDisconnected peer) _ hdropped hphase).minds,
    fun _ ↦ (htell (.message peer payload) m h hphase).minds⟩

private theorem minds_acceptNotification (htell : Heeds base tell) (h : m.Minds base)
    (hphase : m.session.phase = .connected) (response : Wire.Response) :
    Ensures (acceptNotification tell response) m (fun _ ↦ Minds base) (Minds base) := by
  rw [acceptNotification, ensures_ite]
  refine ⟨fun _ ↦ minds_fail htell h, fun _ ↦ ?_⟩
  cases response.peerId? with
  | none => exact minds_fail htell h
  | some id =>
    simp only [ensures_bind, ensures_get, ensures_ite]
    exact ⟨fun _ ↦ minds_applyEntry htell h hphase _,
      fun _ ↦ minds_acceptPayload htell h hphase id _⟩

private theorem minds_startWait (htell : Heeds base tell) (h : m.Minds base) :
    Ensures (startWait tell) m (fun _ ↦ Minds base) (Minds base) :=
  ensures_startWait (fun _ ↦ minds_fail htell) (fun _ ↦ id) (fun _ ↦ id) h fun link _ ↦
    h.of_asks (link.asks_issueWait _ _) id

private theorem minds_rearmWait (htell : Heeds base tell) (h : m.Minds base) :
    Ensures (rearmWait tell) m (fun _ ↦ Minds base) (Minds base) :=
  ensures_rearmWait (fun _ ↦ minds_fail htell) (fun _ ↦ id) (fun _ ↦ id) h fun link _ ↦
    h.of_asks (link.asks_rearm _ _ _) id

private theorem minds_armRetry (h : m.Minds base) :
    Ensures armRetry m (fun _ ↦ Minds base) (Minds base) := by
  rw [ensures_armRetry]
  exact ⟨fun _ ↦ h, fun retry _ ↦ h.of_asks (Host.asks_schedule _ _) id⟩

/-! ### Signals -/

/-- Whether a signal is an answer to an exchange. -/
def Signal.IsAnswer : Signal → Prop
  | .commandAnswered _ _ => True
  | _ => False

/-- What a signal does keeps the log timely. Only an answer may make the session connected, and it
has to be the first thing that comes of a step. -/
theorem minds_react (htell : Heeds base tell) (h : m.Minds base) {signal : Signal}
    (hfirst : signal.IsAnswer → m.Untold base) :
    Ensures (react tell signal) m (fun _ ↦ Minds base) (Minds base) := by
  rw [react, ensures_bind, ensures_phase]
  have hend := (follows_fail htell h).minds
  have hidle : Ensures (pure ()) m (fun _ ↦ Minds base) (Minds base) := ensures_pure.2 h
  have hsignOut : Ensures (discard (signOut tell)) m (fun _ ↦ Minds base) (Minds base) :=
    ensures_discard.2 <| (follows_signOut htell h).mono (fun _ _ hafter ↦ hafter.1.minds)
      fun _ hafter ↦ hafter.1.minds
  have hdial (m' : Machine) (h' : m'.Minds base) :
      Ensures (discard (dial tell)) m' (fun _ ↦ Minds base) (Minds base) :=
    ensures_discard.2 (follows_dial htell h').minds
  split
  · rw [ensures_bind, ensures_remember]
    exact hdial _ (h.of_asks (.refl _) id)
  · exact (follows_failToConnect htell h).minds
  · exact hdial m h
  · exact minds_writeRequest htell h
  · exact minds_writeRequest htell h
  · exact minds_writeRequest htell h
  · exact minds_writeRequest htell h
  · next what response _ => exact minds_acceptSignIn htell (hfirst trivial) response
  · next hphase => exact minds_acceptRelay htell h hphase _
  · next hphase => exact minds_acceptDeferred htell h hphase _ _
  · exact hend
  · exact minds_armRetry h
  · exact hend
  · exact hend
  · exact hend
  · exact hend
  · exact hend
  · exact hsignOut
  · exact hend
  · exact minds_startWait htell h
  · next hphase => exact minds_acceptNotification htell h hphase _
  · exact minds_rearmWait htell h
  · exact hend
  · exact ensures_pure.2 h

private theorem minds_onCommand (htell : Heeds base tell) (h : m.Untold base)
    (event : Channel.Event) :
    Ensures (onCommand tell event) m (fun _ ↦ Minds base) (Minds base) := by
  cases event with
  | connected => exact minds_react htell h.minds False.elim
  | received bytes =>
    rw [onCommand, ensures_bind]
    refine (asks_withCommand fun link host ↦ link.asks_receive bytes host).mono
      (fun read after hafter ↦ ?_) fun _ ↦ id
    have huntold := h.of_asks hafter.1
    rcases read with _ | _ | ⟨what, response⟩
    · exact minds_fail htell huntold.minds
    · exact ensures_pure.2 huntold.minds
    · exact minds_react htell huntold.minds fun _ ↦ huntold
  | closed code =>
    rw [onCommand, ensures_bind]
    refine (asks_withCommand fun _ _ ↦ .refl _).mono (fun what after hafter ↦ ?_) fun _ ↦ id
    have hminds := (h.of_asks hafter.1).minds
    simp only [ensures_ite, ensures_pure]
    constructor
    · intro _
      exact minds_react htell hminds False.elim
    · intro _
      exact ⟨fun _ ↦ minds_react htell hminds False.elim, fun _ ↦ hminds⟩

/-- The induction is on the notifications still to be brought: each may end the session. -/
theorem minds_deliverAll (htell : Heeds base tell) (h : m.Minds base)
    (responses : List Wire.Response) :
    Ensures (deliverAll tell responses) m (fun _ ↦ Minds base) (Minds base) := by
  induction responses generalizing m with
  | nil => exact ensures_pure.2 h
  | cons response rest ih =>
    simp only [deliverAll, ensures_bind, ensures_phase, ensures_ite, ensures_pure]
    apply (minds_react htell h False.elim).mono _ fun _ ↦ id
    intro _ after hafter
    constructor
    · intro _
      exact ih hafter
    · intro _
      exact hafter

private theorem minds_onNotify (htell : Heeds base tell) (h : m.Minds base)
    (event : Channel.Event) :
    Ensures (onNotify tell event) m (fun _ ↦ Minds base) (Minds base) := by
  cases event with
  | connected => exact minds_react htell h False.elim
  | received bytes =>
    rw [onNotify, ensures_bind]
    refine Ensures.mono (asks_withNotify fun link host ↦ link.asks_receive bytes host)
      (fun read after hafter ↦ ?_) fun _ ↦ id
    have hminds := h.of_asks hafter.1 fun hconnected ↦ hafter.2 ▸ hconnected
    have hdeliver : Ensures (do
        if (← deliverAll tell read.1) && !read.1.isEmpty then
          rearmWait tell) after (fun _ ↦ Minds base) (Minds base) := by
      simp only [ensures_bind, ensures_ite, ensures_pure]
      exact (minds_deliverAll htell hminds read.1).mono
        (fun _ _ hafter ↦ ⟨fun _ ↦ minds_rearmWait htell hafter, fun _ ↦ hafter⟩) fun _ ↦ id
    obtain ⟨responses, outcome⟩ := read
    cases outcome with
    | failed error => exact minds_fail htell hminds
    | more => exact hdeliver
    | closing => exact hdeliver
  | closed code =>
    rw [onNotify, ensures_bind]
    refine (asks_withNotify fun _ _ ↦ .refl _).mono (fun _ after hafter ↦ ?_) fun _ ↦ id
    have hminds := h.of_asks hafter.1 fun hconnected ↦ hafter.2 ▸ hconnected
    rw [ensures_ite]
    constructor
    · intro _
      exact minds_react htell hminds False.elim
    · intro _
      exact minds_react htell hminds False.elim

private theorem minds_onSocket (htell : Heeds base tell) (h : m.Untold base) (socket : Nat)
    (event : Channel.Event) :
    Ensures (onSocket tell socket event) m (fun _ ↦ Minds base) (Minds base) := by
  have hmoved (p : Channel.Phase) : Untold base { m with host := m.host.setPhase socket p } :=
    h.of_asks (.refl _)
  simp only [onSocket, ensures_bind, ensures_modify, ensures_get, ensures_ite, ensures_pure]
  exact ⟨fun _ ↦ minds_onCommand htell (hmoved _) event,
    fun _ ↦ ⟨fun _ ↦ minds_onNotify htell (hmoved _).minds event, fun _ ↦ (hmoved _).minds⟩⟩

private theorem minds_onAnswer (htell : Heeds base tell) (h : m.Minds base) (ip : Option String) :
    Ensures (onAnswer tell ip) m (fun _ ↦ Minds base) (Minds base) := by
  cases ip with
  | none => exact minds_react htell h False.elim
  | some ip => exact minds_react htell h False.elim

private theorem minds_onTimer (htell : Heeds base tell) (h : m.Minds base) (timer : Nat) :
    Ensures (onTimer tell timer) m (fun _ ↦ Minds base) (Minds base) := by
  simp only [onTimer, ensures_bind, ensures_get]
  cases m.session.retry.fire? timer with
  | none => exact ensures_pure.2 h
  | some retry =>
    have hfired : Minds base { m with session := { m.session with retry } } :=
      h.of_asks (.refl _) id
    rw [ensures_bind, ensures_remember]
    exact minds_react htell hfired False.elim

/-! ### Observers -/

/-- An observer that makes calls keeps to the rules if what it is told of in them does. -/
theorem follows_carryOut (htell : Heeds base tell) (h : m.Minds base) (deeds : List Deed) :
    Ensures (Observer.carryOut tell deeds) m (fun _ ↦ m.Follows base) (m.Follows base) := by
  induction deeds generalizing m with
  | nil => exact ensures_pure.2 h.follows_self
  | cons deed rest ih =>
    have hgo (c : Call) (answer : Option Bool) (after : Machine)
        (hafter : m.Follows base after ∧ (c.IsLeave → after.session.phase ≠ .connected)) :
        Ensures (do modify (·.note (.called c answer)); Observer.carryOut tell rest) after
          (fun _ ↦ m.Follows base) (m.Follows base) := by
      have hnoted : m.Follows base (after.note (.called c answer)) :=
        ⟨hafter.1.minds.called hafter.2, hafter.1.stays⟩
      rw [ensures_bind, ensures_modify]
      exact Ensures.follows hnoted (ih hnoted.minds)
    cases deed with
    | refuse => exact ensures_throw.2 h.follows_self
    | call c =>
      rw [Observer.carryOut, ensures_bind]
      exact (follows_perform htell h c).mono (fun answer ↦ hgo c answer) fun _ hafter ↦ hafter.1
    | attempt c =>
      rw [Observer.carryOut, ensures_bind, ensures_tryCatch]
      exact (follows_perform htell h c).mono (fun answer ↦ hgo c answer)
        fun after hafter ↦ ensures_pure.2 (hgo c none after hafter)

/-- Every observer keeps to the rules, to every depth. -/
theorem heeds_tell (o : Observer) (depth : Nat) : Heeds base (o.tell depth) := by
  induction depth with
  | zero =>
    intro e m h hfits
    have hheard : m.Follows base (m.note (.heard e m.session)) := ⟨h.heard hfits, id⟩
    simp only [Observer.tell, ensures_bind, ensures_get, ensures_ite, ensures_set, ensures_pure]
    exact ⟨fun _ ↦ hheard, fun _ ↦ h.follows_self⟩
  | succ depth ih =>
    intro e m h hfits
    have hheard : m.Follows base (m.note (.heard e m.session)) := ⟨h.heard hfits, id⟩
    simp only [Observer.tell, ensures_bind, ensures_get, ensures_ite, ensures_set, ensures_pure]
    exact ⟨fun _ ↦ Ensures.follows hheard (follows_carryOut ih hheard.minds _),
      fun _ ↦ h.follows_self⟩

end SessionM

/-! ### Steps and runs -/

namespace Machine

open SessionM

variable {base : List (LogEntry Note)}

/-- Whatever a step is, what it adds to the log is timely. -/
theorem minds_step {tell : Event → SessionM Unit} (m : Machine) (htell : Heeds m.host.log tell)
    (s : Step) : Ensures (react tell s) m (fun _ ↦ Minds m.host.log) (Minds m.host.log) := by
  have hsame : m.Untold m.host.log := .refl m
  have hgrant (f : Policy → Policy) : (m.grant f).Minds m.host.log :=
    (hsame.of_asks (.refl _)).minds
  cases s with
  | call c =>
    simp only [react, ensures_bind, ensures_pure]
    exact (follows_perform htell hsame.minds c).mono (fun _ _ hafter ↦ hafter.1.minds)
      fun _ hafter ↦ hafter.1.minds
  | observe =>
    simp only [react, ensures_bind, ensures_get, ensures_ite, ensures_throw, ensures_modify,
      ensures_pure]
    exact ⟨fun _ ↦ hsame.minds, fun _ ↦ hsame.minds⟩
  | answer ip =>
    have hidle : Minds m.host.log { m with session := { m.session with resolver := .idle } } :=
      hsame.minds.of_asks (.refl _) id
    simp only [react, onLookup, ensures_bind, ensures_get, ensures_ite, ensures_remember,
      ensures_pure]
    exact ⟨fun _ ↦ minds_onAnswer htell hidle ip, fun _ ↦ hsame.minds⟩
  | lateAnswer ip =>
    simp only [react, ensures_bind, ensures_pure]
    exact minds_onAnswer htell hsame.minds ip
  | fire timer =>
    simp only [react, ensures_bind, ensures_get, ensures_ite, ensures_pure]
    exact ⟨fun _ ↦ minds_onTimer htell hsame.minds timer, fun _ ↦ hsame.minds⟩
  | socket ref event =>
    simp only [react, ensures_bind, ensures_get]
    cases m.find? ref with
    | none => exact ensures_pure.2 hsame.minds
    | some socket =>
      simp only [ensures_bind, ensures_pure]
      exact minds_onSocket htell hsame socket event
  | accept role granted =>
    simp only [react, ensures_bind, ensures_modify, ensures_pure]
    exact hgrant _
  | sendable role granted =>
    simp only [react, ensures_bind, ensures_modify, ensures_pure]
    exact hgrant _
  | resolvable granted =>
    simp only [react, ensures_bind, ensures_modify, ensures_pure]
    exact hgrant _

/-- What a step adds to the log is timely. -/
theorem minds_step_log (m : Machine) (o : Observer) (depth : Nat) (s : Step) :
    (m.step o depth s).2.Minds m.host.log :=
  (m.minds_step (heeds_tell o depth) s).runWith

private theorem isTimely_newLines (m : Machine) (o : Observer) (depth : Nat) (s : Step) :
    IsTimely (m.newLines (m.step o depth s).2) := by
  obtain ⟨new, hlog, htimely, -⟩ := m.minds_step_log o depth s
  have hnew : m.newLines (m.step o depth s).2 = new := by simp [newLines, hlog]
  rwa [hnew]

private theorem fits_of_mem_log {o : Observer} {depth : Nat} {m : Machine}
    (h : ∀ e s, .note (.heard e s) ∈ m.host.log → e.Fits s) (steps : List Step) :
    ∀ e s, .note (.heard e s) ∈ (run o depth m steps).host.log → e.Fits s := by
  induction steps generalizing m with
  | nil => exact h
  | cons step rest ih =>
    apply ih
    intro e s hmem
    obtain ⟨new, hlog, htimely, -⟩ := m.minds_step_log o depth step
    rw [hlog, List.mem_append] at hmem
    rcases hmem with hmem | hmem
    · obtain ⟨later, earlier, rfl⟩ := List.append_of_mem hmem
      exact htimely.of_append.1
    · exact h e s hmem

/-- In every run, under every observer, every event is heard in a state of the session that it
belongs to, and within a step no news is heard once the session has left. -/
theorem events_in_time (config : Config) (observed : Bool) (policy : Policy) (o : Observer)
    (depth : Nat) (steps : List Step) :
    let m := run o depth (fresh config observed policy) steps
    (∀ e s, .note (.heard e s) ∈ m.host.log → e.Fits s) ∧
    ∀ step later e s earlier,
      m.newLines (m.step o depth step).2 = later ++ .note (.heard e s) :: earlier →
      e.IsNews → ¬ HasLeft earlier := by
  refine ⟨fits_of_mem_log (fun _ _ hmem ↦ absurd hmem List.not_mem_nil) steps, ?_⟩
  intro step later e s earlier hlines
  have htimely := isTimely_newLines (run o depth (fresh config observed policy) steps) o depth step
  rw [hlines] at htimely
  exact htimely.of_append.2

end Machine

end Rendezvous
