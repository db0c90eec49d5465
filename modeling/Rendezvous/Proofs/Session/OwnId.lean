import Rendezvous.Proofs.Link.Command
import Rendezvous.Proofs.Session.Change
import Rendezvous.Proofs.Wire.SignIn

/-!
# The own id

Which id a session goes by, and under which id it writes. The answer to signing in is taken only if
its id is not negative, unless it comes late, when the session is about to leave: then it is taken
with whatever id, and the session signs out under it. But for such ids a session that has an id
never goes by a negative one, and nothing is ever written under a negative one.
-/

namespace Rendezvous

variable {late : Int → Prop} {bytes : Bytes}

/-! ### Requests under an id -/

namespace Wire

/-- The id that a request is sent under. -/
def Sent.ownId : Sent → Int
  | message id _ _ => id
  | wait id => id
  | signOut id => id

/-- What a client may write where ids came late: a request to sign in, a request under an id that
is not negative, and a request to sign out under an id that came late. -/
inductive IsPermitted (late : Int → Prop) (bytes : Bytes) : Prop where
  | signIn {name : String} (written : (Request.signIn name).encode = .ok bytes)
  | sent {r : Sent} (written : r.encode = .ok bytes) (own : 0 ≤ r.ownId)
  | signOut {id : Int} (written : (Sent.signOut id).encode = .ok bytes)
      (assigned : id ≠ Peer.unsetId) (brought : late id)

private theorem Request.isWord_queryOf (name : String) :
    IsWord (String.ofList (Text.Latin1.decode (queryOf name))) := by
  have hnot {b : UInt8} (hb : b ∈ separators) :
      Text.Latin1.charOf b ∉ Text.Latin1.decode (queryOf name) := by
    rw [Text.Latin1.charOf_mem_decode]
    exact fun h ↦ (isPlain_of_mem_queryOf b h).2 hb
  refine ⟨⟨isLatin_decode _, ?_⟩, ?_⟩
  · rw [String.toList_ofList]
    exact hnot (b := Bytes.cr) (by decide)
  · rw [String.toList_ofList]
    exact hnot (b := 32) (by decide)

/-- No request under an id is a request to sign in: the two have other paths. -/
theorem Sent.encode_signIn_ne {r : Sent} (h : r.encode = .ok bytes) (name : String) :
    (Request.signIn name).encode ≠ .ok bytes := by
  intro hsignIn
  obtain ⟨_, hbytes, hread⟩ := read?_encode (isWritable_of_encode h) []
  have hmethod : Request.IsWord "GET" := by decide
  have hpath : Request.IsWord "/sign_in" ∧ '?' ∉ "/sign_in".toList := by decide
  obtain ⟨_, hbytes', hread'⟩ := Request.read?_encode (r := Request.signIn name) hmethod hpath
    (Request.isWord_queryOf name) rfl (List.forall_mem_nil _) rfl []
  cases h.symm.trans hbytes
  cases hsignIn.symm.trans hbytes'
  rw [hread, Option.some.injEq, Prod.mk.injEq] at hread'
  have hsame : r.received.path = "/sign_in" := congrArg Received.path hread'.1
  cases r <;> simp [received] at hsame

/-- The id that a permitted request is sent under. -/
theorem IsPermitted.own (h : IsPermitted late bytes) {r : Sent} (hr : r.encode = .ok bytes) :
    0 ≤ r.ownId ∨ ∃ id, r = .signOut id ∧ id ≠ Peer.unsetId ∧ late id := by
  have hsame {r' : Sent} (hr' : r'.encode = .ok bytes) : r = r' := by
    have hbytes : bytes ++ [] = bytes ++ [] := rfl
    exact (Sent.eq_of_encode_append hr hr' hbytes).1
  cases h with
  | signIn written => exact absurd written (Sent.encode_signIn_ne hr _)
  | sent written own =>
    left
    rwa [hsame written]
  | @signOut id written assigned brought => exact .inr ⟨id, hsame written, assigned, brought⟩

end Wire

/-! ### Sessions under an id -/

/-- Whether a session leaves, or is about to. -/
def Session.IsLeaving (s : Session) : Prop :=
  s.phase = .signingOut ∨ s.phase = .signingOutPending

/-- Whether the id that a session goes by is one it may have where ids came late. -/
structure Session.IsIdentified (late : Int → Prop) (s : Session) : Prop where
  connected : s.phase = .connected → 0 ≤ s.selfId
  own : s.selfId = Peer.unsetId ∨ 0 ≤ s.selfId ∨ s.IsLeaving ∧ late s.selfId

namespace Session

variable {s s' : Session}

private theorem isIdentified_of_unset (hphase : s.phase ≠ .connected)
    (hself : s.selfId = Peer.unsetId) :
    s.IsIdentified late :=
  ⟨fun h ↦ absurd h hphase, .inl hself⟩

private theorem IsIdentified.congr (h : s.IsIdentified late) (hphase : s'.phase = s.phase)
    (hself : s'.selfId = s.selfId) : s'.IsIdentified late where
  connected := by
    rw [hphase, hself]
    exact h.connected
  own := by
    rw [IsLeaving, hphase, hself]
    exact h.own

private theorem IsEarly.not_isLeaving (h : s.IsEarly) : ¬ s.IsLeaving := by
  intro hleaving
  rcases h with h | h | h <;> rcases hleaving with hleaving | hleaving <;>
    cases h.symm.trans hleaving

/-- An early session stays early under the same id. -/
theorem IsIdentified.proceed (h : s.IsIdentified late) (hearly : s.IsEarly)
    (hphase : s'.phase ≠ .connected) (hself : s'.selfId = s.selfId) : s'.IsIdentified late where
  connected h' := absurd h' hphase
  own := by
    rw [hself]
    exact h.own.imp_right fun hown ↦ .inl (hown.resolve_right fun hlate ↦
      hearly.not_isLeaving hlate.1)

/-- A session that begins to leave goes by the same id. -/
theorem IsIdentified.leave (h : s.IsIdentified late) {p : Session.Phase}
    (hp : p = .signingOut ∨ p = .signingOutPending) :
    Session.IsIdentified late { s with phase := p } where
  connected h' := by
    have hconnected : p = .connected := h'
    rcases hp with hp | hp <;> cases hp.symm.trans hconnected
  own := h.own.imp_right fun hown ↦ hown.imp_right fun hlate ↦ ⟨hp, hlate.2⟩

end Session

/-! ### Machines -/

/-- What a line of a log may hold where ids came late: of what is written only what is permitted,
and of sessions that are shown only such that go by an id they may have. -/
def LogEntry.IsPermitted (late : Int → Prop) : LogEntry Note → Prop
  | .action (.send _ bytes) => Wire.IsPermitted late bytes
  | .action _ => True
  | .note (.heard _ s) => s.IsIdentified late
  | .note (.called _ _) => True

namespace Machine

/-- What was and will be written, and the id that the session goes by and ever was shown under, are
as they may be where ids came late. -/
structure IsIdentified (late : Int → Prop) (m : Machine) : Prop where
  session : m.session.IsIdentified late
  queued : ∀ c ∈ m.session.command, ∀ request ∈ c.pending, Wire.IsPermitted late request
  log : ∀ line ∈ m.host.log, line.IsPermitted late

/-- Whether a request may be made where ids came late. -/
abbrev Permits (late : Int → Prop) : Action → Prop := LogEntry.IsPermitted late ∘ .action

variable {m m' : Machine} {tell : Event → SessionM Unit} {c : CommandLink}

private theorem permits_of_isRelease {a : Action} (h : a.isRelease = true) : Permits late a := by
  cases a <;> trivial

private theorem IsIdentified.congr (h : m.IsIdentified late)
    (hsession : m'.session.IsIdentified late) (hcommand : m'.session.command = m.session.command)
    (hasks : m.host.AsksOnly (Permits late) m'.host) : m'.IsIdentified late where
  session := hsession
  queued := by
    rw [hcommand]
    exact h.queued
  log := hasks.forall_mem h.log

/-- After tearing down, only what was written and shown matters. -/
theorem isIdentified_reset (hlog : ∀ line ∈ m.host.log, line.IsPermitted late) :
    m.reset.IsIdentified late where
  session := Session.isIdentified_of_unset (by simp [m.isReset_reset.phase]) m.isReset_reset.selfId
  queued c hc := by
    rw [m.isReset_reset.command] at hc
    cases hc
  log := (m.asksOnly_reset fun _ ↦ permits_of_isRelease).forall_mem hlog

/-- Another command link, which holds back nothing that is not permitted. -/
theorem IsIdentified.putCommand (h : m.IsIdentified late) {after : CommandLink × Host Note}
    (hqueued : ∀ request ∈ after.1.pending, Wire.IsPermitted late request)
    (hasks : m.host.AsksOnly (Permits late) after.2) : (m.putCommand after).IsIdentified late where
  session := h.session.congr rfl rfl
  queued _ hc := by
    cases hc
    exact hqueued
  log := hasks.forall_mem h.log

/-- An exchange over an idle link holds back its request at most. -/
theorem IsIdentified.start (h : m.IsIdentified late) (hidle : c.exchange = none) (what : Exchange)
    {request : Bytes} (hrequest : Wire.IsPermitted late request) (address : Address) :
    (m.putCommand (c.start what request address m.host).2).IsIdentified late := by
  refine h.putCommand (fun pending hpending ↦ ?_) (c.asksOnly_start what request m.host trivial)
  rwa [CommandLink.pending_start_of_idle hidle what request address m.host pending hpending]

private theorem IsIdentified.receive (h : m.IsIdentified late) (hc : m.session.command = some c)
    (bytes : Bytes) : (m.putCommand (c.receive bytes m.host).2).IsIdentified late := by
  refine h.putCommand ?_ (c.asksOnly_receive bytes m.host trivial)
  rw [c.pending_receive]
  exact h.queued c hc

private theorem IsIdentified.putNotify (h : m.IsIdentified late) {after : NotifyLink × Host Note}
    (hasks : m.host.AsksOnly (Permits late) after.2) : (m.putNotify after).IsIdentified late :=
  h.congr (h.session.congr rfl rfl) rfl hasks

/-- A connected session may wait. -/
theorem IsIdentified.wait (h : m.IsIdentified late) (hphase : m.session.phase = .connected)
    {request : Bytes} (hrequest : NotifyLink.waitBytes m.session.selfId = .ok request) (k : Nat) :
    Permits late (.send k request) :=
  Wire.IsPermitted.sent (r := .wait m.session.selfId) hrequest (h.session.connected hphase)

private theorem IsIdentified.openLinks (h : m.IsIdentified late) :
    m.openLinks.IsIdentified late where
  session := by
    rw [m.session_openLinks]
    exact h.session.congr rfl rfl
  queued c hc := by
    rw [m.session_openLinks] at hc
    cases hc
    simp
  log := (m.asksOnly_openLinks fun _ ↦ trivial).forall_mem h.log

/-- Whatever becomes of a session at one go, its id and what is written under it are again as they
may be. -/
theorem IsIdentified.change (htell : Keeps (IsIdentified late) tell) (h : m.IsIdentified late)
    (hchange : m.Change late tell m') : m'.IsIdentified late := by
  cases hchange with
  | fail => exact htell _ _ (isIdentified_reset h.log)
  | giveUp => exact htell _ _ (isIdentified_reset h.log)
  | refuse => exact htell _ _ h
  | name => exact h.congr (h.session.congr rfl rfl) rfl (.refl _)
  | lookUp ended =>
    exact h.congr (h.session.proceed (.inl ended) Session.Phase.noConfusion rfl) rfl
      (Host.asksOnly_ask _ trivial)
  | resolve => exact h.congr (h.session.congr rfl rfl) rfl (.refl _)
  | @dial early request c command dialled written =>
    have hidle : c.exchange = none := by
      rw [m.session_openLinks] at command
      cases command
      rfl
    obtain ⟨name, -, hwritten⟩ := Wire.Request.exists_string?_of_signInAs written
    have hdialled := h.openLinks.start hidle .signIn (.signIn hwritten) m.openLinks.session.address
    have hself : m.openLinks.session.selfId = m.session.selfId := by rw [m.session_openLinks]
    exact hdialled.congr (h.session.proceed early Session.Phase.noConfusion hself) rfl (.refl _)
  | @dialRefused early request c command =>
    apply htell
    apply isIdentified_reset
    exact (c.asksOnly_start .signIn request m.openLinks.host trivial).forall_mem h.openLinks.log
  | dialUnwritten => exact h.openLinks
  | relay phase request command idle written =>
    have hpermitted : Wire.IsPermitted late request :=
      .sent (r := .message m.session.selfId _ _) written (h.session.connected phase)
    exact h.start idle .relay hpermitted m.session.address
  | quiet =>
    refine h.congr (h.session.congr ?_ ?_) ?_ (m.asksOnly_quiet fun _ ↦ permits_of_isRelease)
    all_goals rw [m.session_quiet]
  | pend => exact h.congr (h.session.leave (.inr rfl)) rfl (.refl _)
  | leave => exact h.congr (h.session.leave (.inl rfl)) rfl (.refl _)
  | signOut phase request command idle assigned written =>
    have hpermitted : Wire.IsPermitted late request := by
      rcases h.session.own.resolve_left assigned with hown | ⟨-, hlate⟩
      · exact .sent (r := .signOut m.session.selfId) written hown
      · exact .signOut written assigned hlate
    exact h.start idle .signOut hpermitted m.session.address
  | flush command =>
    refine h.putCommand ?_ (CommandLink.asksOnly_flush _ _ fun _ ↦ h.queued _ command _)
    simp [CommandLink.pending_flush]
  | receive command bytes => exact h.receive command bytes
  | abort => exact h.putCommand (by simp [CommandLink.abort]) (.refl _)
  | signIn phase idle writable assigned entries notify =>
    apply htell.announce
    exact h.congr ⟨fun _ ↦ assigned, .inr (.inl assigned)⟩ rfl (Host.asksOnly_connect _ trivial)
  | sent => exact htell _ _ h
  | adopt phase command signingIn bytes ended writable brought =>
    have hread := h.receive command bytes
    refine hread.congr ⟨fun hconnected ↦ ?_, .inr (.inr ⟨.inr phase, brought⟩)⟩ rfl (.refl _)
    cases phase.symm.trans hconnected
  | enter => exact htell _ _ (h.congr (h.session.congr rfl rfl) rfl (.refl _))
  | depart => exact htell _ _ (h.congr (h.session.congr rfl rfl) rfl (.refl _))
  | message => exact htell _ _ h
  | issueWait notify phase =>
    exact h.putNotify (NotifyLink.asksOnly_issueWait _ _ _ fun _ hrequest ↦
      h.wait phase hrequest _)
  | rearm notify phase =>
    exact h.putNotify (NotifyLink.asksOnly_rearm _ _ _ trivial fun _ hrequest ↦
      h.wait phase hrequest _)
  | receiveNotify => exact h.putNotify (NotifyLink.asksOnly_receive _ _ _ trivial)
  | abortNotify => exact h.putNotify (.refl _)
  | arm => exact h.congr (h.session.congr rfl rfl) rfl (Host.asksOnly_ask _ trivial)
  | fire | lookedUp | socket | observe | grant =>
    exact h.congr (h.session.congr rfl rfl) rfl (.refl _)

private theorem isKept_isIdentified (late : Int → Prop) : IsKept late (IsIdentified late) where
  note m n hn h := by
    have hshown : LogEntry.IsPermitted late (.note n) := by
      cases n with
      | heard e s =>
        cases hn
        exact h.session
      | called => trivial
    exact ⟨h.session, h.queued, List.forall_mem_cons.2 ⟨hshown, h.log⟩⟩
  close _ h := isIdentified_reset h.log
  change _ _ _ htell h hchange := h.change htell hchange

private theorem isIdentified_fresh (late : Int → Prop) (config : Config) (observed : Bool)
    (policy : Policy) : (fresh config observed policy).IsIdentified late where
  session := Session.isIdentified_of_unset Session.Phase.noConfusion rfl
  queued c hc := by cases hc
  log := List.forall_mem_nil _

end Machine

/-! ### Runs -/

/-- What a request writes, if it writes anything. -/
def Action.written? : Action → Option Bytes
  | .send _ bytes => some bytes
  | _ => none

namespace Machine

/-- What was written so far, in order. -/
def written (m : Machine) : List Bytes := (Host.actions m.host.log).filterMap Action.written?

/-- Whether an id is brought late in some step of a run. -/
def CameLate (o : Observer) (depth : Nat) (m : Machine) (steps : List Step) (id : Int) : Prop :=
  ∃ done s rest, steps = done ++ s :: rest ∧ (m.run o depth done).BringsLate s id

private theorem isPermitted_of_mem_written {m : Machine} (h : m.IsIdentified late)
    (hbytes : bytes ∈ m.written) : Wire.IsPermitted late bytes := by
  obtain ⟨a, ha, hwritten⟩ := List.mem_filterMap.1 hbytes
  obtain ⟨line, hline, hrequest⟩ := List.mem_filterMap.1 ha
  have hpermitted := h.log line (List.mem_reverse.1 hline)
  cases line with
  | note => cases hrequest
  | action =>
    cases hrequest
    cases a <;> cases hwritten
    exact hpermitted

/-- The own id is valid but for what comes late. At the end of every run, and whenever the observer
is told of an event, the session goes by no id or by one that is not negative, except that a session
that leaves may go by an id that an answer to signing in brought late; while it is connected, its id
is not negative. Whatever was written under an id was written under one that is not negative, except
for requests to sign out under an id that came late. -/
theorem ownId_valid_or_late (config : Config) (observed : Bool) (policy : Policy) (o : Observer)
    (depth : Nat) (steps : List Step) :
    let m := run o depth (fresh config observed policy) steps
    let late := CameLate o depth (fresh config observed policy) steps
    (∀ s, s = m.session ∨ (∃ e, .note (.heard e s) ∈ m.host.log) →
      (s.phase = .connected → 0 ≤ s.selfId) ∧
      (s.selfId = Peer.unsetId ∨ 0 ≤ s.selfId ∨ s.IsLeaving ∧ late s.selfId)) ∧
    ∀ bytes ∈ m.written, ∀ r : Wire.Sent, r.encode = .ok bytes →
      0 ≤ r.ownId ∨ ∃ id, r = .signOut id ∧ id ≠ Peer.unsetId ∧ late id := by
  intro m late
  have h : m.IsIdentified late := by
    apply (isKept_isIdentified late).run_of_late o depth (isIdentified_fresh late _ _ _)
    exact fun done s rest id hsteps hbrought ↦ ⟨done, s, rest, hsteps, hbrought⟩
  refine ⟨?_, fun bytes hbytes r ↦ (isPermitted_of_mem_written h hbytes).own⟩
  rintro s (rfl | ⟨e, he⟩)
  · exact ⟨h.session.connected, h.session.own⟩
  · have hshown : s.IsIdentified late := h.log _ he
    exact ⟨hshown.connected, hshown.own⟩

/-- A caller that leaves before the answer to signing in is there, and an answer with a negative
id. -/
def hurried : List Step := [
  .call (.connect (some "10.0.0.5") (some 8888) none),
  .socket (.number 0) .connected,
  .call .signOut,
  .socket (.number 0) (.received (Bytes.ofAscii
    "HTTP/1.1 200 OK\r\nPragma: -5\r\nContent-Length: 0\r\n\r\n")),
  .socket (.number 0) .connected]

/-- A negative id that comes late is taken, and signed out under. The same answer ends a session
that is not about to leave. -/
theorem negative_ownId_hurried :
    let start := fresh (Config.standard "alice") true {}
    let m := run .silent 0 start hurried
    m.session.selfId = -5 ∧ m.session.phase = .signingOut ∧
      m.written = [Bytes.ofAscii "GET /sign_in?alice HTTP/1.0\r\n\r\n",
        Bytes.ofAscii "GET /sign_out?peer_id=-5 HTTP/1.0\r\n\r\n"] ∧
      (run .silent 0 start (hurried.eraseIdx 2)).session.phase = .disconnected := by
  decide +kernel

end Machine

end Rendezvous
