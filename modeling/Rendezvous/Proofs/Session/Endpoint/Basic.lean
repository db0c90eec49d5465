import Rendezvous.Proofs.Session.Machine
import Rendezvous.Proofs.Session.Record.Basic

/-!
# Where an episode is headed

Everything that bears on where a session dials, in one list with the newest entry first: the
addresses that were handed over in answer to lookups, and the lines of the log. A call to connect
that was granted settles the server and the port of an episode, and a server that is named and not
written out as an address stands for the first address handed over since. Every socket that is
dialled has to be dialled there. What a session remembers is tied to the list by the phase it is in.
-/

namespace Rendezvous

/-- Where an episode is headed: the server and the port that were asked for, and the first address
handed over since. -/
structure Aim where
  server : String
  port : Int
  ip : Option String := none
  deriving DecidableEq, Repr

namespace Aim

/-- The aim of a call to connect; what is left out comes from the settings, and a port that is not
positive stands for the default. -/
def ofCall (config : Config) (server : Option String) (port : Option Int) : Aim where
  server := server.getD config.server
  port := if port.getD config.port ≤ 0 then Config.defaultPort else port.getD config.port

/-- The aim after an address was handed over. The first one counts. -/
def learn (a : Aim) (ip : String) : Aim := { a with ip := some (a.ip.getD ip) }

/-- The address that is headed for: the server itself if it is written out as an address, and the
address that was handed over for it otherwise. -/
def address? (a : Aim) : Option Address :=
  if Address.needsLookup a.server then a.ip.map (⟨·, a.port⟩) else some ⟨a.server, a.port⟩

/-- Where nothing has to be looked up, the server is the address. -/
theorem address?_of_literal {a : Aim} (h : ¬ Address.needsLookup a.server = true) :
    a.address? = some ⟨a.server, a.port⟩ :=
  if_neg h

/-- What is known of an address stays so, whatever else is handed over. -/
theorem address?_learn {a : Aim} {address : Address} (h : a.address? = some address)
    (ip : String) : (a.learn ip).address? = some address := by
  unfold address? learn at *
  by_cases hneeds : Address.needsLookup a.server
  · rw [if_pos hneeds] at h ⊢
    obtain ⟨first, hfirst, rfl⟩ := Option.map_eq_some_iff.1 h
    simp [hfirst]
  · rwa [if_neg hneeds] at h ⊢

/-- A named server stands for the address that is handed over first. -/
theorem address?_learn_of_named {a : Aim} (hneeds : Address.needsLookup a.server = true)
    (hnone : a.ip = none) (ip : String) : (a.learn ip).address? = some ⟨ip, a.port⟩ := by
  simp [address?, learn, hneeds, hnone]

end Aim

/-- Something that bears on where a session dials. -/
inductive Bearing where
  /-- An address is handed over in answer to a lookup. -/
  | answered (ip : String)
  /-- A line of the log. -/
  | line (l : LogEntry Note)

namespace Bearing

@[match_pattern] abbrev dial (k : Nat) (address : Address) : Bearing :=
  .line (.action (.connect k address))

@[match_pattern] abbrev asked (a : Action) : Bearing := .line (.action a)

/-- The aim that is settled: that of a call to connect, where it was granted. -/
def settles? (config : Config) : Bearing → Option Aim
  | .line (.note (.called (.connect server port _) (some true))) =>
    some (.ofCall config server port)
  | _ => none

end Bearing

namespace Course

open Bearing

variable {config : Config} {past : List Bearing} {x : Bearing} {address : Address}

/-- The aim of the latest episode. -/
def aim? (config : Config) : List Bearing → Option Aim
  | [] => none
  | .answered ip :: past => (aim? config past).map (·.learn ip)
  | .line l :: past => ((Bearing.line l).settles? config).or (aim? config past)

/-- The aim that goes for something asked between what came before it and what came next: that of
the call which granted it, where the note of that call is next, and of the episode under way
otherwise. -/
def aimAmid? (config : Config) (next : Option Bearing) (past : List Bearing) : Option Aim :=
  (next.bind (settles? config)).or (aim? config past)

/-- Whether every socket is dialled where its episode is headed, given what comes next. -/
def IsGuided (config : Config) : Option Bearing → List Bearing → Prop
  | _, [] => True
  | next, x :: past =>
    (∀ k address, x = .dial k address →
      (aimAmid? config next past).bind Aim.address? = some address) ∧
    IsGuided config (some x) past

private theorem aim?_asked (a : Action) : aim? config (.asked a :: past) = aim? config past := rfl

/-- A line that settles an aim is that of the session. -/
theorem aim?_of_settles {l : LogEntry Note} {aim : Aim}
    (h : (Bearing.line l).settles? config = some aim) :
    aim? config (.line l :: past) = some aim := by
  rw [aim?, h, Option.some_or]

/-- A line that settles nothing leaves the aim. -/
theorem aim?_of_not_settles {l : LogEntry Note} (h : (Bearing.line l).settles? config = none) :
    aim? config (.line l :: past) = aim? config past := by
  rw [aim?, h, Option.none_or]

private theorem aim?_asks (as : List Action) :
    aim? config (as.map Bearing.asked ++ past) = aim? config past := by
  induction as with
  | nil => rfl
  | cons a as ih => rw [List.map_cons, List.cons_append, aim?_asked, ih]

/-- What comes next and settles nothing leaves the aim. -/
theorem aimAmid?_of_not_settles {next : Option Bearing}
    (hnext : ∀ x ∈ next, x.settles? config = none) :
    aimAmid? config next past = aim? config past := by
  cases next with
  | none => rfl
  | some x => rw [aimAmid?, Option.bind_some, hnext x rfl, Option.none_or]

/-- What does not settle an aim leaves that of everything before it alone. -/
theorem IsGuided.before (h : IsGuided config none past) (hx : x.settles? config = none) :
    IsGuided config (some x) past := by
  cases past with
  | nil => trivial
  | cons y past =>
    refine ⟨fun k address hdial ↦ ?_, h.2⟩
    rw [aimAmid?_of_not_settles fun y hy ↦ Option.mem_some.1 hy ▸ hx]
    exact h.1 k address hdial

/-- One thing more that bears on the session, and dials only what the session aims at. -/
theorem IsGuided.cons (h : IsGuided config none past) (hx : x.settles? config = none)
    (hdial : ∀ k address, x = .dial k address →
      (aim? config past).bind Aim.address? = some address) : IsGuided config none (x :: past) :=
  ⟨hdial, h.before hx⟩

/-- Requests are in order if those to dial are headed where the episode is. -/
theorem IsGuided.asks (h : IsGuided config none past) {as : List Action}
    (hdials : ∀ k address, .connect k address ∈ as →
      (aim? config past).bind Aim.address? = some address) :
    IsGuided config none (as.map Bearing.asked ++ past) := by
  induction as with
  | nil => exact h
  | cons a as ih =>
    have hrest := ih fun k address hmem ↦ hdials k address (List.mem_cons_of_mem a hmem)
    refine hrest.cons rfl fun k address ha ↦ ?_
    rw [aim?_asks]
    apply hdials k address
    cases ha
    exact List.mem_cons_self

/-- The dialling of a call that is noted right after it goes where that call says. -/
theorem IsGuided.called (h : IsGuided config none past) {k : Nat} {l : LogEntry Note} {aim : Aim}
    (hsettles : (Bearing.line l).settles? config = some aim)
    (haddress : aim.address? = some address) :
    IsGuided config none (.line l :: .dial k address :: past) := by
  refine ⟨?_, ?_, h.before rfl⟩
  · rintro j other hl
    cases hl
    cases hsettles
  · intro j other hdial
    cases hdial
    rw [aimAmid?, Option.bind_some, hsettles, Option.some_or, Option.bind_some, haddress]

/-- The order of the older part of the list, which the newer part comes next to. -/
theorem IsGuided.of_append {next : Option Bearing} {later : List Bearing}
    (h : IsGuided config next (later ++ past)) : IsGuided config (later.getLast?.or next) past := by
  induction later generalizing next with
  | nil => exact h
  | cons x later ih =>
    have hrest := ih h.2
    cases later with
    | nil => exact hrest
    | cons y later => exact hrest

end Course

/-! ### What a session remembers of its aim -/

/-- A session that is tied to the aim of the episode: while it is over or looks the server up,
no id is assigned and no exchange is in flight; while it looks up under a name that can be written,
it remembers what was asked for; and from then on it remembers the address that the episode is
headed for. -/
structure Session.Ties (aim : Option Aim) (s : Session) : Prop where
  idle : s.phase = .disconnected ∨ s.phase = .resolving →
    s.selfId = Peer.unsetId ∧ s.exchange? = none
  looking : s.phase = .resolving → s.clientName.string?.isSome → ∃ a, aim = some a ∧
    Address.needsLookup a.server = true ∧ a.ip = none ∧ s.address = ⟨a.server, a.port⟩
  bound : s.phase ≠ .disconnected → s.phase ≠ .resolving →
    aim.bind Aim.address? = some s.address

namespace Session

variable {aim : Option Aim} {s s' : Session}

/-- A session that is over is tied to every aim. -/
theorem IsOver.ties (h : s.IsOver) : s.Ties aim where
  idle _ := ⟨h.selfId, h.exchange⟩
  looking hphase := by
    rw [h.phase] at hphase
    cases hphase
  bound hover := absurd h.phase hover

/-- Only the phase, the address, the name, the exchange in flight and the own id count. -/
theorem Ties.congr (h : s.Ties aim) (hphase : s'.phase = s.phase)
    (haddress : s'.address = s.address) (hname : s'.clientName = s.clientName)
    (hselfId : s'.selfId = s.selfId) (hexchange : s.exchange? = none → s'.exchange? = none) :
    s'.Ties aim where
  idle hidle := by
    obtain ⟨hid, hx⟩ := h.idle (hphase ▸ hidle)
    exact ⟨hselfId.trans hid, hexchange hx⟩
  looking hresolving hnamed := by
    rw [haddress]
    exact h.looking (hphase ▸ hresolving) (hname ▸ hnamed)
  bound hover hresolved := by
    rw [haddress]
    exact h.bound (hphase ▸ hover) (hphase ▸ hresolved)

/-- With an id or an exchange in flight, the address is that of the episode. -/
theorem Ties.heads (h : s.Ties aim) (hknown : s.selfId ≠ Peer.unsetId ∨ s.exchange? ≠ none) :
    aim.bind Aim.address? = some s.address := by
  have hbusy : ¬ (s.phase = .disconnected ∨ s.phase = .resolving) := by
    intro hidle
    obtain ⟨hid, hx⟩ := h.idle hidle
    simp [hid, hx] at hknown
  rw [not_or] at hbusy
  exact h.bound hbusy.1 hbusy.2

/-- Beyond looking up, only the address counts. -/
theorem ties_of_heads (hheads : aim.bind Aim.address? = some s.address)
    (hover : s.phase ≠ .disconnected) (hresolved : s.phase ≠ .resolving) : s.Ties aim where
  idle hidle := by simp [hover, hresolved] at hidle
  looking hresolving := absurd hresolving hresolved
  bound _ _ := hheads

/-- An address that is handed over changes nothing for a session that looks nothing up. -/
theorem Ties.learn (h : s.Ties aim) (hresolved : s.phase ≠ .resolving) (ip : String) :
    s.Ties (aim.map (·.learn ip)) where
  idle := h.idle
  looking hresolving := absurd hresolving hresolved
  bound hover hresolved := by
    obtain ⟨a, rfl, haddress⟩ := Option.bind_eq_some_iff.1 (h.bound hover hresolved)
    exact Aim.address?_learn haddress ip

end Session

/-! ### Which addresses are dialled -/

namespace Host

variable {ν : Type} {A B : Address → Prop} {a b c : Host ν}

/-- Nothing but requests was added to the log, and every address that was dialled is as said. -/
def Dials (A : Address → Prop) (before after : Host ν) : Prop :=
  ∃ asked : List Action, after.log = asked.map .action ++ before.log ∧
    ∀ k address, .connect k address ∈ asked → A address

/-- Where nothing happens nothing is dialled. -/
theorem Dials.refl (h : Host ν) : h.Dials A h := ⟨[], rfl, by simp⟩

/-- Whether a request dials an address as said, if it dials any. -/
def IsDialOf (A : Address → Prop) (x : Action) : Prop :=
  ∀ k address, x = .connect k address → A address

private theorem dials_iff : a.Dials A b ↔ a.AsksOnly (IsDialOf A) b :=
  exists_congr fun _ ↦ and_congr_right' ⟨fun h _ hx k address heq ↦ h k address (heq ▸ hx),
    fun h k address hmem ↦ h _ hmem k address rfl⟩

private theorem isDialOf_of_isRelease {x : Action} (hx : x.isRelease = true) : IsDialOf A x := by
  intro k address heq
  rw [heq] at hx
  cases hx

private theorem isDialOf_connect (k : Nat) (address : Address) :
    IsDialOf (· = address) (.connect k address) := by
  intro j other heq
  cases heq
  rfl

private theorem isDialOf_send (k : Nat) (bytes : Bytes) : IsDialOf A (.send k bytes) := by
  intro j other heq
  cases heq

/-- One request dials what it says. -/
theorem dials_ask (h : Host ν) {x : Action} (hx : ∀ k address, x = .connect k address → A address) :
    h.Dials A (h.ask x) :=
  dials_iff.2 (h.asksOnly_ask hx)

/-- Connecting dials the address that is given. -/
theorem dials_connect (h : Host ν) (k : Nat) (address : Address) :
    h.Dials (· = address) (h.connect k address).2 :=
  dials_iff.2 (h.asksOnly_connect (isDialOf_connect k address))

end Host

section Links

open Host

variable {ν : Type} {A : Address → Prop}

/-- Starting an exchange dials the address that is given, and nothing before. -/
theorem CommandLink.dials_start (l : CommandLink) (what : Exchange) (bytes : Bytes)
    (address : Address) (h : Host ν) :
    h.Dials (· = address) (l.start what bytes address h).2.2 :=
  dials_iff.2 (l.asksOnly_start what bytes h (isDialOf_connect _ _))

/-- Flushing dials nothing. -/
theorem CommandLink.dials_flush (l : CommandLink) (h : Host ν) :
    h.Dials A (l.flush h).2.2 :=
  dials_iff.2 (l.asksOnly_flush h fun _ _ ↦ isDialOf_send _ _)

/-- Receiving dials nothing. -/
theorem CommandLink.dials_receive (l : CommandLink) (bytes : Bytes)
    (h : Host ν) : h.Dials A (l.receive bytes h).2.2 :=
  dials_iff.2 (l.asksOnly_receive bytes h (isDialOf_of_isRelease rfl))

/-- Issuing a wait dials nothing. -/
theorem NotifyLink.dials_issueWait (l : NotifyLink) (id : Int)
    (h : Host ν) : h.Dials A (l.issueWait id h).2.2 :=
  dials_iff.2 (l.asksOnly_issueWait id h fun _ _ ↦ isDialOf_send _ _)

/-- Rearming dials the address that is given, or nothing. -/
theorem NotifyLink.dials_rearm (l : NotifyLink) (id : Int) (address : Address)
    (h : Host ν) : h.Dials (· = address) (l.rearm id address h).2.2 :=
  dials_iff.2 (l.asksOnly_rearm id h (isDialOf_connect _ _) fun _ _ ↦ isDialOf_send _ _)

/-- Receiving dials nothing. -/
theorem NotifyLink.dials_receive (l : NotifyLink) (bytes : Bytes)
    (h : Host ν) : h.Dials A (l.receive bytes h).2.2.2 :=
  dials_iff.2 (l.asksOnly_receive bytes h (isDialOf_of_isRelease rfl))

end Links

namespace Machine

open Host

variable {A : Address → Prop} (m : Machine)

private theorem dials_quiet : m.host.Dials A m.quiet.host :=
  dials_iff.2 (m.asksOnly_quiet fun _ ↦ isDialOf_of_isRelease)

private theorem dials_reset : m.host.Dials A m.reset.host :=
  dials_iff.2 (m.asksOnly_reset fun _ ↦ isDialOf_of_isRelease)

/-- Opening links dials nothing. -/
theorem dials_openLinks : m.host.Dials A m.openLinks.host :=
  dials_iff.2 (m.asksOnly_openLinks fun _ ↦ isDialOf_of_isRelease rfl)

end Machine

/-! ### Machines in the middle of a step -/

namespace Course

open Bearing

/-- The list as it stands in the middle of a step. -/
def courseAt (start : Machine) (past : List Bearing) (m : Machine) : List Bearing :=
  (start.newLines m).map .line ++ past

/-- The aim in the middle of a step. -/
abbrev aimAt? (config : Config) (start : Machine) (past : List Bearing) (m : Machine) :
    Option Aim :=
  aim? config (courseAt start past m)

/-- A machine in the middle of a step that dialled nothing out of order so far. -/
structure Guided (config : Config) (start : Machine) (past : List Bearing) (m : Machine) :
    Prop where
  settings : m.config = config
  grows : ∃ new, m.host.log = new ++ start.host.log
  guided : IsGuided config none (courseAt start past m)

/-- A machine in the middle of a step whose session is tied to the aim besides. -/
structure Tied (config : Config) (start : Machine) (past : List Bearing) (m : Machine) : Prop
    extends Guided config start past m where
  ties : m.session.Ties (aimAt? config start past m)

variable {config : Config} {start m m' : Machine} {past : List Bearing} {A : Address → Prop}
  {c : CommandLink} {n : NotifyLink}

/-- Where nothing was logged since the start, nothing has come to bear. -/
theorem courseAt_self (hlog : m.host.log = start.host.log) : courseAt start past m = past := by
  have hnone : m.host.log = [] ++ start.host.log := hlog
  rw [courseAt, Machine.newLines_of_append hnone, List.map_nil, List.nil_append]

/-- What is added to the log comes before everything that there was. -/
theorem Guided.courseAt (h : Guided config start past m) {new : List (LogEntry Note)}
    (hlog : m'.host.log = new ++ m.host.log) :
    courseAt start past m' = new.map .line ++ courseAt start past m := by
  obtain ⟨old, hold⟩ := h.grows
  have hall : m'.host.log = (new ++ old) ++ start.host.log := by
    rw [hlog, hold, List.append_assoc]
  rw [Course.courseAt, Course.courseAt, Machine.newLines_of_append hold,
    Machine.newLines_of_append hall, List.map_append, List.append_assoc]

/-- A log that grows in the middle of a step has grown since its start. -/
theorem Guided.grown (h : Guided config start past m) {new : List (LogEntry Note)}
    (hlog : m'.host.log = new ++ m.host.log) : ∃ new, m'.host.log = new ++ start.host.log := by
  obtain ⟨old, hold⟩ := h.grows
  exact ⟨new ++ old, by rw [hlog, hold, List.append_assoc]⟩

/-- Requests that dial nothing but what is headed for. The aim is as before. -/
theorem Guided.dials (h : Guided config start past m) (hconfig : m'.config = m.config)
    (hdials : m.host.Dials A m'.host)
    (hA : ∀ address, A address →
      (aimAt? config start past m).bind Aim.address? = some address) :
    Guided config start past m' ∧ aimAt? config start past m' = aimAt? config start past m := by
  obtain ⟨asked, hlog, hdialled⟩ := hdials
  have hcourse : Course.courseAt start past m' =
      asked.map Bearing.asked ++ Course.courseAt start past m := by
    rw [h.courseAt hlog, List.map_map]
    rfl
  refine ⟨⟨hconfig.trans h.settings, h.grown hlog, ?_⟩, ?_⟩
  · rw [hcourse]
    exact h.guided.asks fun k address hmem ↦ hA address (hdialled k address hmem)
  · rw [aimAt?, hcourse, aim?_asks]

/-- Requests that dial nothing at all. -/
theorem Guided.asks (h : Guided config start past m) (m' : Machine)
    (hconfig : m'.config = m.config) (hdials : m.host.Dials (fun _ ↦ False) m'.host) :
    Guided config start past m' ∧ aimAt? config start past m' = aimAt? config start past m :=
  h.dials hconfig hdials fun _ ↦ False.elim

/-- A note that settles nothing. -/
theorem Guided.note (h : Guided config start past m) {a : Note}
    (ha : (Bearing.line (.note a)).settles? config = none) :
    Guided config start past (m.note a) ∧
      aimAt? config start past (m.note a) = aimAt? config start past m := by
  have hlog : (m.note a).host.log = [.note a] ++ m.host.log := rfl
  refine ⟨⟨h.settings, h.grown hlog, ?_⟩, ?_⟩
  · rw [h.courseAt hlog]
    exact h.guided.cons ha fun k address hdial ↦ by cases hdial
  · rw [aimAt?, h.courseAt hlog]
    exact aim?_of_not_settles ha

/-- A note that settles no aim leaves the session tied. -/
theorem Tied.note (h : Tied config start past m) {a : Note}
    (ha : (Bearing.line (.note a)).settles? config = none) :
    Tied config start past (m.note a) where
  toGuided := (h.toGuided.note ha).1
  ties := by
    rw [(h.toGuided.note ha).2]
    exact h.ties

/-- A change of a machine that dials only what the session is headed for. -/
theorem Tied.move (h : Tied config start past m) (hconfig : m'.config = m.config)
    (hdials : m.host.Dials A m'.host)
    (hA : ∀ address, A address →
      (aimAt? config start past m).bind Aim.address? = some address)
    (hties : ∀ aim, m.session.Ties aim → m'.session.Ties aim) : Tied config start past m' := by
  obtain ⟨hguided, haim⟩ := h.toGuided.dials hconfig hdials hA
  refine ⟨hguided, ?_⟩
  rw [haim]
  exact hties _ h.ties

/-- A change of a machine that dials nothing. -/
theorem Tied.rest (h : Tied config start past m) (hconfig : m'.config = m.config)
    (hdials : m.host.Dials (fun _ ↦ False) m'.host)
    (hties : ∀ aim, m.session.Ties aim → m'.session.Ties aim) : Tied config start past m' :=
  h.move hconfig hdials (fun _ ↦ False.elim) hties

/-- A use of the command link that dials the address of the session, if any, once the episode is
headed there. -/
theorem Tied.startCommand (h : Tied config start past m) (hover : m.session.phase ≠ .disconnected)
    (hresolved : m.session.phase ≠ .resolving) {after : CommandLink × Host Note}
    (hdials : m.host.Dials (· = m.session.address) after.2) :
    Tied config start past (m.putCommand after) := by
  have hheads := h.ties.bound hover hresolved
  refine h.move rfl hdials (fun address heq ↦ heq ▸ hheads) fun aim hties ↦ ?_
  exact Session.ties_of_heads (hties.bound hover hresolved) hover hresolved

/-- A use of the command link that dials nothing, and keeps the exchange in flight or ends it. -/
theorem Tied.turnCommand (h : Tied config start past m) (hc : m.session.command = some c)
    {after : CommandLink × Host Note} (hdials : m.host.Dials (fun _ ↦ False) after.2)
    (hexchange : after.1.exchange = c.exchange ∨ after.1.exchange = none) :
    Tied config start past (m.putCommand after) := by
  refine h.rest rfl hdials fun aim hties ↦ hties.congr rfl rfl rfl rfl fun hnone ↦ ?_
  rw [Session.exchange?_of_command hc] at hnone
  exact hexchange.elim (fun hkept ↦ hkept.trans hnone) id

/-- A use of the notify link that dials the address of the session, if any, once the episode is
headed there. -/
theorem Tied.startNotify (h : Tied config start past m) (hover : m.session.phase ≠ .disconnected)
    (hresolved : m.session.phase ≠ .resolving) {after : NotifyLink × Host Note}
    (hdials : m.host.Dials (· = m.session.address) after.2) :
    Tied config start past (m.putNotify after) := by
  have hheads := h.ties.bound hover hresolved
  refine h.move rfl hdials (fun address heq ↦ heq ▸ hheads) fun aim hties ↦ ?_
  exact hties.congr rfl rfl rfl rfl id

/-- A use of the notify link that dials nothing. -/
theorem Tied.turnNotify (h : Tied config start past m) {after : NotifyLink × Host Note}
    (hdials : m.host.Dials (fun _ ↦ False) after.2) :
    Tied config start past (m.putNotify after) :=
  h.rest rfl hdials fun _ hties ↦ hties.congr rfl rfl rfl rfl id

/-- Whatever else a session remembers beyond looking up, the address of the episode counts. -/
theorem Tied.remember (h : Tied config start past m)
    (hheads : (aimAt? config start past m).bind Aim.address? = some m.session.address)
    {s : Session} (haddress : s.address = m.session.address) (hover : s.phase ≠ .disconnected)
    (hresolved : s.phase ≠ .resolving) : Tied config start past { m with session := s } := by
  obtain ⟨hguided, haim⟩ := h.toGuided.asks { m with session := s } rfl (.refl _)
  refine ⟨hguided, ?_⟩
  rw [haim]
  exact Session.ties_of_heads (haddress ▸ hheads) hover hresolved

/-- Tearing down leaves nothing to be tied to. -/
theorem Guided.reset (h : Guided config start past m) : Tied config start past m.reset :=
  ⟨(h.asks m.reset m.config_reset m.dials_reset).1, m.isReset_reset.toIsOver.ties⟩

/-- Keeping quiet leaves the session tied to its aim. -/
theorem Tied.quiet (h : Tied config start past m) : Tied config start past m.quiet := by
  refine h.rest m.config_quiet m.dials_quiet fun aim hties ↦ ?_
  rw [m.session_quiet]
  exact hties.congr rfl rfl rfl rfl id

end Course

end Rendezvous
