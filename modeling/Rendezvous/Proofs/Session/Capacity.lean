import Rendezvous.Proofs.Session.Answering.Basic
import Rendezvous.Proofs.Session.Polling.Reading
import Rendezvous.Proofs.Session.Proceeding

/-!
# What a session holds of what it receives

A framer alone may hold more than its limit, after an error or behind a response that was taken
off. The links of a session never do once a step is over: the command link drops what follows an
answer, the long poll reads on until it waits, and what cannot be framed ends the session. So
whatever the server sends and however it is cut, a link that would hold more than the limit is
closed, and the observer hears that the session is over.
-/

namespace Rendezvous

open Wire

namespace Wire.Framer

/-- Whether a framer has a limit and holds no more than it. -/
structure IsWithin (max : Int) (f : Framer) : Prop where
  limit : f.limit = some max
  held : (f.buffered : Int) ≤ max

variable {f : Framer} {max : Int}

private theorem isWithin_of_empty (hlimit : f.limit = some max) (hmax : 0 ≤ max)
    (hempty : f.buffer = []) :
    f.IsWithin max := by
  refine ⟨hlimit, ?_⟩
  rw [buffered, hempty]
  exact hmax

private theorem IsWithin.reset (h : f.IsWithin max) (hmax : 0 ≤ max) : f.reset.IsWithin max :=
  isWithin_of_empty h.limit hmax rfl

private theorem buffered_le_of_next? (hlimit : f.limit = some max) (h : f.next? = .ok none) :
    (f.buffered : Int) ≤ max := by
  have hwithin := isOverLimit_eq_false_of_next? h
  rw [isOverLimit, hlimit, Option.any_some, decide_eq_false_iff_not] at hwithin
  exact Int.not_lt.1 hwithin

/-- A framer that waits for more bytes is within its limit. -/
theorem isWithin_of_next? (hlimit : f.limit = some max) (h : f.next? = .ok none) :
    f.IsWithin max := ⟨hlimit, buffered_le_of_next? hlimit h⟩

/-- Without the limit, too, nothing is found where nothing is found under it. -/
theorem next?_unlimited_ne_some (h : ∀ found, f.next? ≠ .ok (some found))
    (found : Response × Bytes) :
    ({ f with limit := none } : Framer).next? ≠ .ok (some found) :=
  fun hfound ↦ h found (next?_limit hfound f.limit)

end Wire.Framer

/-! ### The links -/

namespace CommandLink

variable {ν : Type} {c : CommandLink} {max : Int}

/-- The link without a limit. -/
def unlimited (c : CommandLink) : CommandLink :=
  { c with framer := { c.framer with limit := none } }

private theorem isWithin_start (h : c.framer.IsWithin max) (hmax : 0 ≤ max) (what : Exchange)
    (bytes : Bytes) (address : Address) (host : Host ν) :
    (c.start what bytes address host).2.1.framer.IsWithin max := by
  rw [start]
  split
  · exact h
  · rcases hconnect : host.connect c.socket address with ⟨_ | _, after⟩ <;>
      simp only [hconnect] <;> exact h.reset hmax

/-- Bytes that can be framed are either waited on or dropped with the answer. -/
theorem isWithin_receive (h : c.framer.IsWithin max) (hmax : 0 ≤ max) {bytes : Bytes}
    {host : Host ν} (hframed : ∀ e, (c.receive bytes host).1 ≠ .error e) :
    (c.receive bytes host).2.1.framer.IsWithin max := by
  rcases hnext : (c.framer.feed bytes).next? with e | _ | ⟨response, rest⟩
  · exact absurd (congrArg (·.1) (receive_of_error hnext host)) (hframed e)
  · rw [receive_of_none hnext]
    exact Framer.isWithin_of_next? h.limit hnext
  · rw [receive_of_some hnext]
    exact h.reset hmax

/-- Bytes that would leave more than the limit are refused. -/
theorem receive_fails (hlimit : c.framer.limit = some max) (hmax : 0 ≤ max) {bytes : Bytes}
    {host host' : Host ν} (hover : max < (c.unlimited.receive bytes host).2.1.framer.buffered) :
    ∃ e, (c.receive bytes host').1 = .error e := by
  have hfeed : c.unlimited.framer.feed bytes = { c.framer.feed bytes with limit := none } := rfl
  rcases hnext : (c.framer.feed bytes).next? with e | _ | ⟨response, rest⟩
  · exact ⟨e, by rw [receive_of_error hnext]⟩
  · have hwithin := Framer.buffered_le_of_next? (f := c.framer.feed bytes) hlimit hnext
    have hheld : (c.unlimited.receive bytes host).2.1.framer.buffered =
        (c.framer.feed bytes).buffered := by
      rcases hfree : (c.unlimited.framer.feed bytes).next? with e | _ | found
      · rw [receive_of_error hfree]
        rfl
      · rw [receive_of_none hfree]
        rfl
      · exact absurd (hfeed ▸ hfree) (Framer.next?_unlimited_ne_some (by simp [hnext]) found)
    omega
  · rw [receive_of_some (hfeed ▸ Framer.next?_limit hnext none)] at hover
    exact absurd hmax (Int.not_le.2 hover)

end CommandLink

namespace NotifyLink

variable {ν : Type} {n : NotifyLink} {f : Framer} {max : Int}

/-- The link without a limit. -/
def unlimited (n : NotifyLink) : NotifyLink :=
  { n with framer := { n.framer with limit := none } }

private theorem framer_issueWait (n : NotifyLink) (id : Int) (host : Host ν) :
    (n.issueWait id host).2.1.framer = n.framer := by
  rw [issueWait]
  split <;> rfl

private theorem framer_rearm (n : NotifyLink) (id : Int) (address : Address) (host : Host ν) :
    (n.rearm id address host).2.1.framer = n.framer := by
  rw [rearm]
  split
  · rfl
  · exact n.framer_issueWait id host

/-- Nothing is left behind a response that announces a close. -/
theorem buffer_drain_of_closing (h : (drain f).2.1 = .closing) : (drain f).2.2.buffer = [] := by
  induction f using Framer.drain_induction with
  | error f e he => simp [drain_of_error he] at h
  | wait f hwait => simp [drain_of_none hwait] at h
  | found f response rest hnext ih =>
    cases hcloses : response.closes with
    | true =>
      rw [drain_of_closes hnext hcloses]
      rfl
    | false =>
      rw [drain_of_stays hnext hcloses] at h ⊢
      exact ih h

/-- What is left of bytes that can be framed is waited on, unless the server closes. -/
theorem isWithin_receive (h : n.framer.IsWithin max) (hmax : 0 ≤ max) {bytes : Bytes}
    {host : Host ν} (hframed : ∀ e, (n.receive bytes host).2.1 ≠ .failed e) :
    (n.receive bytes host).2.2.1.framer.IsWithin max := by
  have hlimit : (drain (n.framer.feed bytes)).2.2.limit = some max :=
    (limit_drain _).trans h.limit
  cases hread : (drain (n.framer.feed bytes)).2.1 with
  | more => exact Framer.isWithin_of_next? hlimit (next?_drain hread)
  | closing => exact Framer.isWithin_of_empty hlimit hmax (buffer_drain_of_closing hread)
  | failed e => exact absurd hread (hframed e)

/-- A reading that would leave more than the limit fails. The induction is on the responses that are
read before. -/
theorem drain_fails (hlimit : f.limit = some max) (hmax : 0 ≤ max)
    (hover : max < (drain { f with limit := none }).2.2.buffered) :
    ∃ e, (drain f).2.1 = .failed e := by
  induction f using Framer.drain_induction with
  | error f e he => exact ⟨e, by rw [drain_of_error he]⟩
  | wait f hwait =>
    have hwithin := Framer.buffered_le_of_next? hlimit hwait
    have hheld : (drain { f with limit := none }).2.2.buffered = f.buffered := by
      rcases hfree : ({ f with limit := none } : Framer).next? with e | _ | found
      · rw [drain_of_error hfree]
        rfl
      · rw [drain_of_none hfree]
        rfl
      · exact absurd hfree (Framer.next?_unlimited_ne_some (by simp [hwait]) found)
    omega
  | found f response rest hnext ih =>
    have hfree := Framer.next?_limit hnext none
    cases hcloses : response.closes with
    | true =>
      rw [drain_of_closes hfree hcloses] at hover
      exact absurd hmax (Int.not_le.2 hover)
    | false =>
      rw [drain_of_stays hfree hcloses] at hover
      rw [drain_of_stays hnext hcloses]
      exact ih hlimit hover

end NotifyLink

/-! ### The session -/

namespace Machine

open SessionM

/-- Whether the links of a session are over different sockets and hold no more than its settings
allow. -/
structure IsBounded (config : Config) (m : Machine) : Prop where
  made : m.config = config
  command : ∀ c ∈ m.session.command, c.framer.IsWithin config.maxResponseSize
  notify : ∀ n ∈ m.session.notify, n.framer.IsWithin config.maxResponseSize
  apart : ∀ c ∈ m.session.command, ∀ n ∈ m.session.notify, c.socket ≠ n.socket

variable {config : Config} {m m' : Machine}

/-- A session with the same links under the same settings. -/
theorem IsBounded.congr (h : m.IsBounded config) (hconfig : m'.config = m.config)
    (hcommand : m'.session.command = m.session.command)
    (hnotify : m'.session.notify = m.session.notify) : m'.IsBounded config where
  made := hconfig.trans h.made
  command := hcommand ▸ h.command
  notify := hnotify ▸ h.notify
  apart := hcommand ▸ hnotify ▸ h.apart

private theorem isBounded_of_isReset (hmade : m.config = config) (hreset : m.session.IsReset) :
    m.IsBounded config where
  made := hmade
  command c hc := by simp [hreset.command] at hc
  notify n hn := by simp [hreset.notify] at hn
  apart c hc := by simp [hreset.command] at hc

private theorem IsBounded.putCommand (h : m.IsBounded config) {c : CommandLink}
    (hc : m.session.command = some c) {after : CommandLink × Host Note}
    (hremains : CommandLink.Remains (c, m.host) after)
    (hwithin : after.1.framer.IsWithin config.maxResponseSize) :
    (m.putCommand after).IsBounded config where
  made := h.made
  command c' hc' := by
    cases hc'
    exact hwithin
  notify := h.notify
  apart c' hc' n hn := by
    cases hc'
    exact hremains.socket ▸ h.apart c hc n hn

private theorem IsBounded.putNotify (h : m.IsBounded config) {n : NotifyLink}
    (hn : m.session.notify = some n) {after : NotifyLink × Host Note}
    (hsocket : after.1.socket = n.socket)
    (hwithin : after.1.framer.IsWithin config.maxResponseSize) :
    (m.putNotify after).IsBounded config where
  made := h.made
  command := h.command
  notify n' hn' := by
    cases hn'
    exact hwithin
  apart c hc n' hn' := by
    cases hn'
    exact hsocket ▸ h.apart c hc n hn

private theorem isBounded_openLinks (hmade : m.config = config)
    (hmax : 0 ≤ config.maxResponseSize) :
    m.openLinks.IsBounded config := by
  have hfresh : ({ limit := some m.config.maxResponseSize } : Framer).IsWithin
      config.maxResponseSize := Framer.isWithin_of_empty (by rw [hmade]) hmax rfl
  refine ⟨m.config_openLinks.trans hmade, ?_, ?_, ?_⟩ <;> rw [m.session_openLinks]
  · rintro c ⟨⟩
    exact hfresh
  · rintro n ⟨⟩
    exact hfresh
  · rintro c ⟨⟩ n ⟨⟩
    exact Nat.ne_of_lt (Nat.lt_succ_self _)

private theorem IsBounded.quiet (h : m.IsBounded config) (hmax : 0 ≤ config.maxResponseSize) :
    m.quiet.IsBounded config := by
  refine ⟨m.config_quiet.trans h.made, ?_, ?_, ?_⟩ <;> rw [m.session_quiet]
  · exact h.command
  · intro after hafter
    obtain ⟨n, hn, rfl⟩ := Option.map_eq_some_iff.1 hafter
    exact (h.notify n hn).reset hmax
  · intro c hc after hafter
    obtain ⟨n, hn, rfl⟩ := Option.map_eq_some_iff.1 hafter
    exact h.apart c hc n hn

/-- All that a session does keeps its links within the limit. -/
theorem isCourse_isBounded (hmax : 0 ≤ config.maxResponseSize) :
    IsCourse fun m m' ↦ m.IsBounded config → m'.IsBounded config where
  refl _ := id
  trans h h' := h' ∘ h
  note _ _ h := h.congr rfl rfl rfl
  remembered _ _ hcommand hnotify _ _ h := h.congr rfl hcommand hnotify
  observe _ h := h.congr rfl rfl rfl
  grant _ _ h := h.congr rfl rfl rfl
  reset m h := isBounded_of_isReset (m.config_reset.trans h.made) m.isReset_reset
  quiet _ h := h.quiet hmax
  openLinks _ h := isBounded_openLinks h.made hmax
  lookup m host port h := by
    apply ensures_const.1
    rw [ensures_startLookup]
    exact ⟨fun _ ↦ h, fun _ _ ↦ h.congr rfl rfl rfl⟩
  arm m h := by
    apply ensures_const.1
    rw [ensures_armRetry]
    exact ⟨fun _ ↦ h, fun _ _ ↦ h.congr rfl rfl rfl⟩
  start {_ c} hc what request h := h.putCommand hc (c.remains_start what request _ _)
    (CommandLink.isWithin_start (h.command c hc) hmax what request _ _)
  flush {_ c} hc h := h.putCommand hc (c.remains_flush _) (c.framer_flush _ ▸ h.command c hc)
  abort {_ c} hc h := h.putCommand hc ⟨rfl, .refl _⟩ ((h.command c hc).reset hmax)
  receive {_ c} hc bytes hframed h := h.putCommand hc (c.remains_receive bytes _)
    (CommandLink.isWithin_receive (h.command c hc) hmax hframed)
  refuse hc bytes _ _ h := isBounded_of_isReset (by rw [config_reset]; exact h.made)
    (isReset_reset _)
  dialled {_ n} hn _ h := h.putNotify hn rfl (h.notify n hn)
  issueWait {_ n} hn id h := h.putNotify hn (n.remains_issueWait id _).socket
    (n.framer_issueWait id _ ▸ h.notify n hn)
  rearm {_ n} hn id address h := h.putNotify hn (n.remains_rearm id address _).socket
    (n.framer_rearm id address _ ▸ h.notify n hn)
  abortNotify {_ n} hn h := h.putNotify hn rfl ((h.notify n hn).reset hmax)
  receiveNotify {_ n} hn bytes hframed h := h.putNotify hn rfl
    (NotifyLink.isWithin_receive (h.notify n hn) hmax hframed)
  refuseNotify hn bytes _ _ h := isBounded_of_isReset (by rw [config_reset]; exact h.made)
    (isReset_reset _)

private theorem IsBounded.struck (h : m.IsBounded config) (s : Step) :
    (m.struck s).IsBounded config := by
  unfold Machine.struck
  split
  · exact h.congr rfl rfl rfl
  · split <;> exact h.congr rfl rfl rfl
  · split <;> exact h.congr rfl rfl rfl
  · exact h

private theorem IsBounded.run (hmax : 0 ≤ config.maxResponseSize) (h : m.IsBounded config)
    (o : Observer) (depth : Nat) (steps : List Step) : (m.run o depth steps).IsBounded config := by
  induction steps generalizing m with
  | nil => exact h
  | cons s rest ih => exact ih ((isCourse_isBounded hmax).step o depth m s (h.struck s))

/-! ### More than the limit -/

/-- Whether bytes that come over a socket would leave more than the limit with the link over it, if
the link had none. -/
inductive Overflows (m : Machine) (ref : SocketRef) (bytes : Bytes) : Prop where
  | command {c : CommandLink} (link : m.session.command = some c)
      (found : m.find? ref = some c.socket)
      (exceeds : m.config.maxResponseSize <
        (c.unlimited.receive bytes m.host).2.1.framer.buffered)
  | notify {n : NotifyLink} (link : m.session.notify = some n)
      (found : m.find? ref = some n.socket)
      (exceeds : m.config.maxResponseSize <
        (n.unlimited.receive bytes m.host).2.2.1.framer.buffered)

/-- Whether a step ends a session: it is torn down with nothing heard before, and then the observer
is told. -/
def BreaksOff (m : Machine) (o : Observer) (depth : Nat) (s : Step) : Prop :=
  ∃ ended : Machine, ended.session.IsReset ∧ ended.observed = m.observed ∧
    m.host.Asks ended.host ∧ (m.step o depth s).2 = after (o.tell depth .disconnected) ended

/-- What the observer is told of is noted before anything that it does. -/
theorem log_tell (hobserved : m.observed = true) (o : Observer) (depth : Nat) (e : Event) :
    ∃ new, (after (o.tell depth e) m).host.log =
      new ++ .note (.heard e m.session) :: m.host.log := by
  apply (ensures_const (P := fun later : Machine ↦ ∃ new, later.host.log =
    new ++ .note (.heard e m.session) :: m.host.log)).1
  cases depth with
  | zero =>
    simp only [Observer.tell, ensures_bind, ensures_get, hobserved, ↓reduceIte, ensures_set,
      ensures_pure]
    exact ⟨[], rfl⟩
  | succ depth =>
    simp only [Observer.tell, ensures_bind, ensures_get, hobserved, ↓reduceIte, ensures_set]
    apply ensures_const.2
    obtain ⟨new, hlog, -⟩ := isCourse_proceeds.runs_carryOut (m := m.note (.heard e m.session))
      (isCourse_proceeds.runs_tell o depth) (o (m.note (.heard e m.session)) e)
    exact ⟨new, hlog⟩

/-- Where a step ends a session, that is the first thing that is heard of the step. -/
theorem BreaksOff.notes {o : Observer} {depth : Nat} {s : Step} (h : m.BreaksOff o depth s)
    (hobserved : m.observed = true) : ∃ ended later, ended.IsReset ∧
      Host.notes (m.step o depth s).2.host.log =
        Host.notes m.host.log ++ .heard .disconnected ended :: later := by
  obtain ⟨ended, hreset, hsame, ⟨asked, hasked⟩, hafter⟩ := h
  obtain ⟨new, hlog⟩ := log_tell (hsame.trans hobserved) o depth .disconnected
  refine ⟨ended.session, Host.notes new, hreset, ?_⟩
  rw [hafter, hlog, hasked]
  simp [Host.notes, List.filterMap_map]

/-- Bytes that the command link cannot frame end the session. -/
theorem after_onCommand_of_error {tell : Event → SessionM Unit} {c : CommandLink}
    (hc : m.session.command = some c) {bytes : Bytes} {e : FramingError}
    (hfails : (c.receive bytes m.host).1 = .error e) :
    after (onCommand tell (.received bytes)) m =
      after (tell .disconnected) (m.putCommand (c.receive bytes m.host).2).reset := by
  apply after_eq
  rw [onCommand, ensures_bind, ensures_withCommand_of_eq hc, hfails]
  exact (ensures_const (P := (· = _))).2 rfl

/-- Bytes that the notify link cannot frame end the session. -/
theorem after_onNotify_of_failed {tell : Event → SessionM Unit} {n : NotifyLink}
    (hn : m.session.notify = some n) {bytes : Bytes} {e : FramingError}
    (hfails : (n.receive bytes m.host).2.1 = .failed e) :
    after (onNotify tell (.received bytes)) m =
      after (tell .disconnected) (m.putNotify (n.receive bytes m.host).2.2).reset := by
  apply after_eq
  rw [onNotify, ensures_bind, ensures_withNotify_of_eq hn]
  simp only [hfails]
  exact (ensures_const (P := (· = _))).2 rfl

/-- The machine with a socket found in the phase that an event leaves it in. -/
def located (m : Machine) (k : Nat) (event : Channel.Event) : Machine :=
  { m with host := m.host.setPhase k ((m.host.phaseOf k).after event) }

/-- An event of the command socket is brought to the command link. -/
theorem step_command_socket {c : CommandLink} (hc : m.session.command = some c)
    {ref : SocketRef} (hfound : m.find? ref = some c.socket) (o : Observer) (depth : Nat)
    (event : Channel.Event) : (m.step o depth (.socket ref event)).2 =
      after (onCommand (o.tell depth) event) (m.located c.socket event) := by
  rw [Machine.step, runWith_snd]
  apply after_eq
  simp only [Machine.react, ensures_bind, ensures_get, hfound, onSocket, ensures_modify, hc,
    Option.any_some, decide_true, ↓reduceIte, ensures_pure]
  exact (ensures_const (P := (· = _))).2 rfl

/-- An event of the notify socket is brought to the notify link. -/
theorem step_notify_socket {n : NotifyLink} (hn : m.session.notify = some n)
    (hapart : ∀ c ∈ m.session.command, c.socket ≠ n.socket) {ref : SocketRef}
    (hfound : m.find? ref = some n.socket) (o : Observer) (depth : Nat)
    (event : Channel.Event) : (m.step o depth (.socket ref event)).2 =
      after (onNotify (o.tell depth) event) (m.located n.socket event) := by
  have hnot : ¬ m.session.command.any (fun c ↦ c.socket = n.socket) = true := by
    simpa [Option.any_eq_true] using hapart
  rw [Machine.step, runWith_snd]
  apply after_eq
  simp only [Machine.react, ensures_bind, ensures_get, hfound, onSocket, ensures_modify, hn, hnot,
    Option.any_some, decide_true, ↓reduceIte, ensures_pure]
  exact (ensures_const (P := (· = _))).2 rfl

/-- A step that comes to tearing down a machine in which nothing was heard, and to telling of it,
ends the session. -/
theorem breaksOff_of_reset {o : Observer} {depth : Nat} {s : Step} {ended : Machine}
    (hobserved : ended.observed = m.observed) (hasks : m.host.Asks ended.host)
    (hafter : (m.step o depth s).2 = after (o.tell depth .disconnected) ended.reset) :
    m.BreaksOff o depth s :=
  ⟨ended.reset, isReset_reset _, (observed_reset _).trans hobserved, hasks.trans (asks_reset _),
    hafter⟩

/-- A chunk that would leave more than the limit ends the session. -/
theorem IsBounded.breaksOff (h : m.IsBounded config) (hmax : 0 ≤ config.maxResponseSize)
    {ref : SocketRef} {bytes : Bytes} (hover : m.Overflows ref bytes) (o : Observer)
    (depth : Nat) : m.BreaksOff o depth (.socket ref (.received bytes)) := by
  cases hover with
  | @command c hc hfound hover =>
    rw [h.made] at hover
    obtain ⟨e, hfails⟩ : ∃ e,
        (c.receive bytes (m.located c.socket (.received bytes)).host).1 = .error e :=
      CommandLink.receive_fails (h.command c hc).limit hmax hover
    have hstep := step_command_socket hc hfound o depth (.received bytes)
    rw [after_onCommand_of_error (m := m.located c.socket _) hc hfails] at hstep
    refine breaksOff_of_reset ?_ ?_ hstep
    · rfl
    · exact c.asks_receive bytes (m.located c.socket (.received bytes)).host
  | @notify n hn hfound hover =>
    rw [h.made] at hover
    obtain ⟨e, hfails⟩ := NotifyLink.drain_fails (f := n.framer.feed bytes)
      (h.notify n hn).limit hmax hover
    have hstep := step_notify_socket hn (fun c hc ↦ h.apart c hc n hn) hfound o depth
      (.received bytes)
    rw [after_onNotify_of_failed (m := m.located n.socket _) hn hfails] at hstep
    refine breaksOff_of_reset ?_ ?_ hstep
    · rfl
    · exact n.asks_receive bytes (m.located n.socket (.received bytes)).host

/-- In every run, the links of a session hold no more than its settings allow after every step,
whatever the server sent, however it was cut, and whatever the observer does when it is told. A
chunk that would leave more ends the session, and this is the first thing that the observer hears of
it. -/
theorem isBounded_run {config : Config} (hmax : 0 ≤ config.maxResponseSize) (observed : Bool)
    (policy : Policy) (o : Observer) (depth : Nat) (steps : List Step) :
    let m := run o depth (fresh config observed policy) steps
    (∀ c ∈ m.session.command, (c.framer.buffered : Int) ≤ config.maxResponseSize) ∧
    (∀ n ∈ m.session.notify, (n.framer.buffered : Int) ≤ config.maxResponseSize) ∧
    ∀ ref bytes, m.Overflows ref bytes →
      m.BreaksOff o depth (.socket ref (.received bytes)) ∧
      (m.observed = true → ∃ ended later, ended.IsReset ∧
        Host.notes (m.step o depth (.socket ref (.received bytes))).2.host.log =
          Host.notes m.host.log ++ .heard .disconnected ended :: later) := by
  intro m
  have hfresh : (fresh config observed policy).IsBounded config :=
    isBounded_of_isReset rfl ⟨⟨rfl, rfl, rfl, rfl, rfl, rfl⟩, rfl, rfl⟩
  have hbounded : m.IsBounded config := hfresh.run hmax o depth steps
  refine ⟨fun c hc ↦ (hbounded.command c hc).held, fun n hn ↦ (hbounded.notify n hn).held, ?_⟩
  intro ref bytes hover
  have hends := hbounded.breaksOff hmax hover o depth
  exact ⟨hends, hends.notes⟩

/-- Settings under which eight bytes are held. -/
def narrow : Config := { Config.standard "alice" with maxResponseSize := 8 }

/-- An observer that signs in again when it first hears that the session is over. -/
def returning : Observer :=
  Reaction.observer [⟨.disconnected, 1, [.call (.connect (some "10.0.0.5") none none)]⟩]

/-- A sign-in that is under way. -/
def dialledIn : List Step := [
  .call (.connect (some "10.0.0.5") none none),
  .socket (.newest .command) .connected]

/-- Ten bytes come in answer to signing in. -/
theorem isBounded_run_flooded :
    0 ≤ narrow.maxResponseSize ∧
      (run returning 3 (fresh narrow true {}) dialledIn).Overflows (.newest .command)
        (Bytes.ofAscii "HTTP/1.0 2") ∧
      (run returning 3 (fresh narrow true {}) dialledIn).BreaksOff returning 3
        (.socket (.newest .command) (.received (Bytes.ofAscii "HTTP/1.0 2"))) := by
  have hmax : 0 ≤ narrow.maxResponseSize := by decide
  have hover : (run returning 3 (fresh narrow true {}) dialledIn).Overflows (.newest .command)
      (Bytes.ofAscii "HTTP/1.0 2") :=
    .command (c := ⟨0, { limit := some 8 }, none, some .signIn⟩) (by decide +kernel)
      (by decide +kernel) (by decide +kernel)
  obtain ⟨-, -, hends⟩ := isBounded_run hmax true {} returning 3 dialledIn
  exact ⟨hmax, hover, (hends _ _ hover).1⟩

end Machine

end Rendezvous
