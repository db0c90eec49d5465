import Rendezvous.Proofs.Session.Episode.Reports
import Rendezvous.Proofs.Session.Machine
import Rendezvous.Proofs.Session.Polling.Reading

/-!
# What is reported of notifications

What becomes of a connected session by the notifications that are handed over to it is a matter of
its directory and of them alone: one after another they are reported and entered, up to one that
ends the session. The next wait is then put in place, and nothing is heard of that.
-/

namespace Rendezvous

open Wire

/-! ### Notifications and the directory -/

namespace Peer.Directory

variable {d d' : Directory} {response : Response} {reports : List Event}

/-- What is reported of an entry of the directory, and the directory after it. -/
def enter (d : Directory) (body : Bytes) : List Event × Directory :=
  match Entry.read? (Text.Utf8.decodeLossy body) with
  | none => ([], d)
  | some entry =>
    if entry.connected then
      (if (d.add entry.id entry.name).1 then [.peerConnected entry.id entry.name] else [],
        (d.add entry.id entry.name).2)
    else ([.peerDisconnected entry.id], (d.remove entry.id).2)

/-- What is reported of a payload, and the directory after it. -/
def take (d : Directory) (peer : Int) (payload : Bytes) : List Event × Directory :=
  if payload = hangUpToken then ([.peerDisconnected peer], (d.remove peer).2)
  else ([.message peer payload], d)

/-- What is reported of a notification, and the directory after it; nothing where it ends the
session. -/
def notice? (d : Directory) (response : Response) : Option (List Event × Directory) :=
  if !response.isOk then none
  else response.peerId?.map fun id ↦
    if id = d.selfId then d.enter response.body else d.take id response.body

/-- What is reported of notifications up to one that ends the session, and the directory after
them, if none does. -/
def notices (d : Directory) : List Response → List Event × Option Directory
  | [] => ([], some d)
  | response :: rest =>
    match d.notice? response with
    | none => ([], none)
    | some (reports, d) => (reports ++ (d.notices rest).1, (d.notices rest).2)

/-- A notice that is taken over is followed by the others. -/
theorem notices_cons_of_some (h : d.notice? response = some (reports, d')) (rest : List Response) :
    d.notices (response :: rest) =
      (reports ++ (d'.notices rest).1, (d'.notices rest).2) := by
  rw [notices, h]

private theorem notices_cons_of_none (h : d.notice? response = none) (rest : List Response) :
    d.notices (response :: rest) = ([], none) := by
  rw [notices, h]

/-- After a notification that ends the session nothing is reported. -/
theorem notices_append_of_over {earlier : List Response} (h : (d.notices earlier).2 = none)
    (later : List Response) : d.notices (earlier ++ later) = d.notices earlier := by
  induction earlier generalizing d with
  | nil => cases h
  | cons response rest ih =>
    cases hnotice : d.notice? response with
    | none => rw [List.cons_append, notices_cons_of_none hnotice, notices_cons_of_none hnotice]
    | some out =>
      rw [notices_cons_of_some hnotice] at h
      rw [List.cons_append, notices_cons_of_some hnotice, notices_cons_of_some hnotice, ih h]

/-- Notices are taken over in parts. -/
theorem notices_append {earlier : List Response} (h : (d.notices earlier).2 = some d')
    (later : List Response) : d.notices (earlier ++ later) =
      ((d.notices earlier).1 ++ (d'.notices later).1, (d'.notices later).2) := by
  induction earlier generalizing d with
  | nil =>
    cases h
    rfl
  | cons response rest ih =>
    cases hnotice : d.notice? response with
    | none =>
      rw [notices_cons_of_none hnotice] at h
      cases h
    | some out =>
      rw [notices_cons_of_some hnotice] at h
      rw [List.cons_append, notices_cons_of_some hnotice, notices_cons_of_some hnotice, ih h,
        List.append_assoc]

/-- Of an initial part of notifications an initial part of the reports is heard. -/
theorem notices_prefix (d : Directory) {part all : List Response} (h : part <+: all) :
    (d.notices part).1 <+: (d.notices all).1 := by
  obtain ⟨rest, rfl⟩ := h
  cases hover : (d.notices part).2 with
  | none =>
    simp only [notices_append_of_over hover, List.prefix_refl]
  | some d' =>
    rw [notices_append hover]
    exact List.prefix_append _ _

end Peer.Directory

/-! ### Sessions that poll -/

namespace Machine

/-- A connected session with an observer, of this id and directory, whose notify link holds these
bytes and is over a socket of its own. -/
structure Polls (p : Policy) (id : Int) (k : Nat) (f : Framer) (d : Peer.Directory) (m : Machine) :
    Prop where
  observed : m.observed = true
  phase : m.session.phase = .connected
  selfId : m.session.selfId = id
  writable : Numeral.IsWritable id
  directory : m.session.directory = d
  own : d.selfId = id
  command : m.session.command.any (·.socket = k) = false
  notify : ∃ n, m.session.notify = some n ∧ n.socket = k ∧ n.framer = f
  role : m.host.roles[k]? = some .notify
  policy : m.host.policy = p

/-- A session came to its end, and its socket is closed. -/
structure Ends (before : Machine) (reports : List Event) (k : Nat) (after : Machine) : Prop where
  adds : before.Adds (reports ++ [.disconnected]) after
  ended : after.session.IsReset
  closed : after.host.phaseOf k = .closed

/-- A session that polls goes on to poll, with its socket in a phase. -/
structure Goes (before : Machine) (reports : List Event) (p : Policy) (id : Int) (k : Nat)
    (f : Framer) (d : Peer.Directory) (phase : Channel.Phase) (after : Machine) : Prop where
  adds : before.Adds reports after
  polls : after.Polls p id k f d
  socket : after.host.phaseOf k = phase

/-- Whether a wait is outstanding on a socket. -/
def Waits (k : Nat) (m : Machine) : Prop :=
  ∃ n, m.session.notify = some n ∧ n.socket = k ∧ n.waiting = true

/-- What news come to: the session goes on with a directory, or it has ended. -/
def Meets (before : Machine) (news : List Event × Option Peer.Directory) (p : Policy) (id : Int)
    (k : Nat) (f : Framer) (phase : Channel.Phase) (after : Machine) : Prop :=
  match news.2 with
  | none => before.Ends news.1 k after
  | some d => before.Goes news.1 p id k f d phase after

variable {m m' m'' : Machine} {p : Policy} {id : Int} {k : Nat} {f f' : Framer}
  {d d' : Peer.Directory} {phase : Channel.Phase} {reports reports' : List Event}

private theorem Ends.after (h : m'.Ends reports' k m'') (hadds : m.Adds reports m') :
    m.Ends (reports ++ reports') k m'' where
  adds := List.append_assoc _ _ _ ▸ hadds.trans h.adds
  ended := h.ended
  closed := h.closed

/-- What is heard before a session goes on is heard first. -/
theorem Goes.after (h : m'.Goes reports' p id k f d phase m'') (hadds : m.Adds reports m') :
    m.Goes (reports ++ reports') p id k f d phase m'' where
  adds := hadds.trans h.adds
  polls := h.polls
  socket := h.socket

private theorem Goes.meets (h : m.Goes reports p id k f d phase m') :
    m.Meets (reports ++ (d.notices []).1, (d.notices []).2) p id k f phase m' := by
  show m.Goes (reports ++ []) p id k f d phase m'
  rwa [List.append_nil]

/-- News after which there is a directory leave the session polling with it. -/
theorem meets_iff_goes {news : List Event × Option Peer.Directory} (hd : news.2 = some d) :
    m.Meets news p id k f phase m' ↔ m.Goes news.1 p id k f d phase m' := by
  rw [Meets, hd]

/-- News after which there is no directory are the end of the session. -/
theorem meets_iff_ends {news : List Event × Option Peer.Directory} (hd : news.2 = none) :
    m.Meets news p id k f phase m' ↔ m.Ends news.1 k m' := by
  rw [Meets, hd]

private theorem Meets.after {news : List Event × Option Peer.Directory}
    (h : m'.Meets news p id k f phase m'') (hadds : m.Adds reports m') :
    m.Meets (reports ++ news.1, news.2) p id k f phase m'' := by
  obtain ⟨later, _ | d⟩ := news
  · exact Ends.after h hadds
  · exact Goes.after h hadds

private theorem Polls.owns (h : m.Polls p id k f d) : m.Owns k := by
  obtain ⟨n, hn, hsocket, -⟩ := h.notify
  exact .inr ⟨n, hn, hsocket⟩

private theorem Polls.note (h : m.Polls p id k f d) (n : Note) :
    (m.note n).Polls p id k f d := { h with }

private theorem Polls.know (h : m.Polls p id k f d) (hown : d'.selfId = id) :
    Polls p id k f d' { m with session := { m.session with directory := d' } } :=
  { h with directory := rfl, own := hown }

/-- The notify link is put in place over the same socket. -/
theorem Polls.putNotify (h : m.Polls p id k f d) {after : NotifyLink × Host Note}
    (hsocket : after.1.socket = k) (hframer : after.1.framer = f')
    (hretains : m.host.Retains after.2) : (m.putNotify after).Polls p id k f' d :=
  { h with
    notify := ⟨after.1, rfl, hsocket, hframer⟩
    role := (congrArg (·[k]?) hretains.roles).trans h.role
    policy := hretains.policy.trans h.policy }

end Machine

namespace SessionM

open Machine

variable {tell : Event → SessionM Unit} {m : Machine} {p : Policy} {id : Int} {k : Nat}
  {f : Framer} {d : Peer.Directory} {E : Machine → Prop}

/-- A session that polls and fails closes its socket. -/
theorem ends_fail (htell : Listens tell) (h : m.Polls p id k f d) :
    Ensures (fail tell) m (fun _ ↦ m.Ends [] k) E := by
  have hreset : m.Adds [] m.reset := .of_asks m.asks_reset m.observed_reset
  rw [fail, ensures_bind, ensures_modify]
  apply ensures_tell htell (hreset.observed.trans h.observed)
  exact {
    adds := hreset.trans (m.reset.adds_note _ _)
    ended := m.isReset_reset
    closed := m.phaseOf_reset fun hno ↦ absurd h.owns hno }

private theorem goes_tell (htell : Listens tell) (h : m.Polls p id k f d) (e : Event) :
    Ensures (tell e) m (fun _ ↦ m.Goes [e] p id k f d (m.host.phaseOf k)) E :=
  ensures_tell htell h.observed ⟨m.adds_note _ _, h.note _, rfl⟩

/-- News of the directory are entered first, and then told. -/
theorem goes_news (htell : Listens tell) (h : m.Polls p id k f d) {d' : Peer.Directory}
    (hself : d'.selfId = d.selfId) (e : Event) :
    Ensures (tell e) { m with session := { m.session with directory := d' } }
      (fun _ ↦ m.Goes [e] p id k f d' (m.host.phaseOf k)) E := by
  apply ensures_tell htell
  · exact h.observed
  · exact ⟨(adds_note _ _ _).after_asks (m.adds_session _), (h.know (hself.trans h.own)).note _,
      rfl⟩

private theorem goes_applyEntry (htell : Listens tell) (h : m.Polls p id k f d) (body : Bytes) :
    Ensures (applyEntry tell body) m (fun _ ↦
      m.Goes (d.enter body).1 p id k f (d.enter body).2 (m.host.phaseOf k)) E := by
  rw [applyEntry, Peer.Directory.enter]
  cases Peer.Entry.read? (Text.Utf8.decodeLossy body) with
  | none => exact ensures_pure.2 ⟨.refl m, h, rfl⟩
  | some entry =>
    have hself := d.selfId_add entry.id entry.name
    have hself' : (d.remove entry.id).2.selfId = d.selfId := rfl
    simp only [ensures_bind, ensures_get, ensures_ite, ensures_remember, ensures_pure, h.directory]
    refine ⟨fun hjoined ↦ ⟨fun hstored ↦ ?_, fun hown ↦ ?_⟩, fun hleft ↦ ?_⟩
    · rw [if_pos hjoined, if_pos hstored]
      exact goes_news htell h hself _
    · rw [if_pos hjoined, if_neg hown]
      exact ⟨m.adds_session _, h.know (hself.trans h.own), rfl⟩
    · rw [if_neg hleft]
      exact goes_news htell h hself' _

private theorem goes_acceptPayload (htell : Listens tell) (h : m.Polls p id k f d) (peer : Int)
    (payload : Bytes) : Ensures (acceptPayload tell peer payload) m (fun _ ↦
      m.Goes (d.take peer payload).1 p id k f (d.take peer payload).2 (m.host.phaseOf k)) E := by
  simp only [acceptPayload, ensures_ite, ensures_bind, ensures_remember, h.directory]
  rw [Peer.Directory.take]
  constructor
  · intro hbye
    have hself : (d.remove peer).2.selfId = d.selfId := rfl
    rw [if_pos hbye]
    exact goes_news htell h hself _
  · intro hpayload
    rw [if_neg hpayload]
    exact goes_tell htell h _

private theorem meets_acceptNotification (htell : Listens tell) (h : m.Polls p id k f d)
    (response : Response) : Ensures (acceptNotification tell response) m (fun _ ↦
      m.Meets (d.notices [response]) p id k f (m.host.phaseOf k)) E := by
  rw [acceptNotification, ensures_ite]
  constructor
  · intro hbad
    have hnotice : d.notice? response = none := if_pos hbad
    rw [Peer.Directory.notices_cons_of_none hnotice]
    exact ends_fail htell h
  · intro hok
    have hnotice : d.notice? response = response.peerId?.map fun peer ↦
        if peer = d.selfId then d.enter response.body else d.take peer response.body := if_neg hok
    cases hpeer : response.peerId? with
    | none =>
      rw [hpeer] at hnotice
      rw [Peer.Directory.notices_cons_of_none hnotice]
      exact ends_fail htell h
    | some peer =>
      simp only [ensures_bind, ensures_get, ensures_ite, h.selfId]
      constructor
      · intro hown
        have hentry : d.notice? response = some (d.enter response.body) := by
          rw [hnotice, hpeer]
          exact congrArg some (if_pos (hown.trans h.own.symm))
        rw [Peer.Directory.notices_cons_of_some hentry]
        exact (goes_applyEntry htell h _).mono (fun _ _ hgoes ↦ hgoes.meets) fun _ he ↦ he
      · intro hother
        have hpayload : d.notice? response = some (d.take peer response.body) := by
          rw [hnotice, hpeer]
          exact congrArg some (if_neg fun hown ↦ hother (hown.trans h.own))
        rw [Peer.Directory.notices_cons_of_some hpayload]
        exact (goes_acceptPayload htell h _ _).mono (fun _ _ hgoes ↦ hgoes.meets) fun _ he ↦ he

/-- The notifications that are handed over together are told one after another, up to one that ends
the session. -/
theorem meets_deliverAll (htell : Listens tell) (h : m.Polls p id k f d)
    (responses : List Response) : Ensures (deliverAll tell responses) m (fun all after ↦
      m.Meets (d.notices responses) p id k f (m.host.phaseOf k) after ∧
        all = (d.notices responses).2.isSome) E := by
  induction responses generalizing m d with
  | nil => exact ensures_pure.2 ⟨⟨.refl m, h, rfl⟩, rfl⟩
  | cons response rest ih =>
    simp only [deliverAll, ensures_bind, ensures_phase, ensures_ite, ensures_pure]
    have hreact : Ensures (react tell (.notifyAnswered response)) m (fun _ ↦
        m.Meets (d.notices [response]) p id k f (m.host.phaseOf k)) E := by
      rw [react, ensures_bind, ensures_phase, h.phase]
      exact meets_acceptNotification htell h response
    refine hreact.mono ?_ fun _ he ↦ he
    intro _ after hmeets
    cases hnotice : d.notice? response with
    | none =>
      rw [Peer.Directory.notices_cons_of_none hnotice] at hmeets ⊢
      have hends : m.Ends [] k after := hmeets
      refine ⟨fun hphase ↦ ?_, fun _ ↦ ⟨hends, rfl⟩⟩
      cases hphase.symm.trans hends.ended.phase
    | some out =>
      rw [Peer.Directory.notices_cons_of_some hnotice] at hmeets ⊢
      have hgoes : m.Goes (out.1 ++ []) p id k f out.2 (m.host.phaseOf k) after := hmeets
      rw [List.append_nil] at hgoes
      refine ⟨fun _ ↦ ?_, fun hnot ↦ absurd hgoes.polls.phase hnot⟩
      refine (ih hgoes.polls).mono ?_ fun _ he ↦ he
      rintro all final ⟨hrest, hall⟩
      rw [hgoes.socket] at hrest
      exact ⟨hrest.after hgoes.adds, hall⟩

/-! ### The next wait -/

/-- On a connection that is open, the next wait is written, and nothing is heard of it. -/
theorem goes_rearmWait (h : m.Polls p id k f d) (hopen : m.host.phaseOf k = .connected)
    (hsends : ∀ moment, p.sends ⟨.notify, moment⟩ = true) :
    Ensures (rearmWait tell) m (fun _ after ↦
      m.Goes [] p id k f d .connected after ∧ after.Waits k) E := by
  obtain ⟨n, hn, rfl, hframer⟩ := h.notify
  have hnot : m.host.isClosed n.socket = false := by
    rw [Host.isClosed, hopen]
    rfl
  have hcan : m.host.canSend n.socket = true := by
    rw [Host.canSend, Host.getElem?_of_role h.role, hopen, h.policy, Option.any_some, hsends]
    rfl
  obtain ⟨request, hrearm⟩ := n.rearm_of_open h.writable m.session.address hnot hcan
  simp only [rearmWait, ensures_bind, ensures_get, ensures_withNotify_of_eq hn, h.selfId, hrearm,
    ensures_ofRequest_ok, ensures_ite, ensures_pure]
  refine ⟨fun hfalse ↦ absurd hfalse (by simp), fun _ ↦ ⟨?_, _, rfl, rfl, rfl⟩⟩
  exact {
    adds := .of_asks (m.host.asks_ask _) rfl
    polls := h.putNotify rfl hframer (m.host.retains_ask _)
    socket := hopen }

/-- Over a connection that is closed, the next wait is dialled for, or that is the end. -/
theorem goes_or_ends_rearmWait (htell : Listens tell) (h : m.Polls p id k f d)
    (hclosed : m.host.phaseOf k = .closed) :
    Ensures (rearmWait tell) m (fun _ after ↦
      if p.accepts ⟨.notify, m.host.moment⟩ then m.Goes [] p id k f d .connecting after
      else m.Ends [] k after) E := by
  obtain ⟨n, hn, rfl, hframer⟩ := h.notify
  have hshut : m.host.isClosed n.socket = true := by
    rw [Host.isClosed, hclosed]
    rfl
  have hdials : m.host.canDial n.socket = p.accepts ⟨.notify, m.host.moment⟩ := by
    rw [Host.canDial, Host.getElem?_of_role h.role, hclosed, h.policy, Option.any_some]
    rfl
  simp only [rearmWait, ensures_bind, ensures_get, ensures_withNotify_of_eq hn,
    n.rearm_of_closed _ _ hshut, ensures_ofRequest_ok, ensures_ite, ensures_pure]
  cases haccepts : p.accepts ⟨.notify, m.host.moment⟩ with
  | true =>
    have hconnect : m.host.connect n.socket m.session.address = (true,
        (m.host.setPhase n.socket .connecting).ask (.connect n.socket m.session.address)) :=
      if_pos (hdials.trans haccepts)
    rw [hconnect]
    refine ⟨fun hfalse ↦ absurd hfalse (by simp), fun _ ↦ ?_⟩
    exact {
      adds := .of_asks (Host.asks_ask _ _) rfl
      polls := h.putNotify rfl hframer ((m.host.retains_setPhase _ _).trans (Host.retains_ask _ _))
      socket := Host.phaseOf_setPhase (Host.lt_of_role h.role) _ }
  | false =>
    have hconnect : m.host.connect n.socket m.session.address = (false, m.host) :=
      if_neg (by simp [hdials, haccepts])
    rw [hconnect]
    refine ⟨fun _ ↦ ?_, fun htrue ↦ absurd rfl htrue⟩
    have hpolls : (m.putNotify ({ n with waiting := false }, m.host)).Polls p id n.socket f d :=
      h.putNotify rfl hframer (.refl _)
    have hadds : m.Adds [] (m.putNotify ({ n with waiting := false }, m.host)) :=
      .of_asks (.refl _) rfl
    refine (ends_fail htell hpolls).mono (fun _ _ hends ↦ ?_) fun _ he ↦ he
    rw [if_neg Bool.false_ne_true]
    exact hends.after hadds

/-! ### Received bytes -/

/-- What is left to do once received bytes are read: what was read is handed over, and then the next
wait is put in place. -/
def handOver (tell : Event → SessionM Unit) (responses : List Response) : SessionM Unit := do
  if (← deliverAll tell responses) && !responses.isEmpty then
    rearmWait tell

/-- What a session that polls does with a chunk: it drains the link, and then each way of ending has
its own course. -/
theorem ensures_received (h : m.Polls p id k f d) (bytes : Bytes) {Q : Unit → Machine → Prop}
    (hrest : ∀ m', m.Adds [] m' → m'.Polls p id k (NotifyLink.drain (f.feed bytes)).2.2 d →
      m'.host.phaseOf k = (if (NotifyLink.drain (f.feed bytes)).2.1 = .closing then .closed
        else m.host.phaseOf k) →
      Ensures (match (NotifyLink.drain (f.feed bytes)).2.1 with
        | .failed _ => fail tell
        | _ => handOver tell (NotifyLink.drain (f.feed bytes)).1) m' Q E) :
    Ensures (onNotify tell (.received bytes)) m Q E := by
  obtain ⟨n, hn, rfl, rfl⟩ := h.notify
  rw [onNotify, ensures_bind, ensures_withNotify_of_eq hn]
  apply hrest (m.putNotify (n.receive bytes m.host).2.2)
  · exact .of_asks (n.asks_receive bytes m.host) rfl
  · have hremains := n.remains_receive bytes m.host
    exact h.putNotify hremains.socket rfl hremains.host
  · show (ite _ _ _ : Host Note).phaseOf n.socket = _
    split
    · rw [Host.phaseOf_close, if_pos rfl]
    · rfl

variable {bytes : Bytes}

/-- Of bytes that cannot be framed nothing is handed over. -/
theorem ends_received (htell : Listens tell) (h : m.Polls p id k f d)
    (hfailed : (NotifyLink.drain (f.feed bytes)).2.1.IsFailure) :
    Ensures (onNotify tell (.received bytes)) m (fun _ ↦ m.Ends [] k) E := by
  apply ensures_received h
  intro m' hadds hpolls _
  rcases hout : (NotifyLink.drain (f.feed bytes)).2.1 with _ | _ | e
  · rw [hout] at hfailed
    exact hfailed.elim
  · rw [hout] at hfailed
    exact hfailed.elim
  · exact (ends_fail htell hpolls).mono (fun _ _ hends ↦ hends.after hadds) fun _ he ↦ he

/-- On a connection that stays open, what was read is handed over, and the session goes on unless
it has ended. -/
theorem meets_received_of_more (htell : Listens tell) (h : m.Polls p id k f d)
    (hopen : m.host.phaseOf k = .connected)
    (hsends : ∀ moment, p.sends ⟨.notify, moment⟩ = true)
    (hmore : (NotifyLink.drain (f.feed bytes)).2.1 = .more) :
    Ensures (onNotify tell (.received bytes)) m (fun _ ↦
      m.Meets (d.notices (NotifyLink.drain (f.feed bytes)).1) p id k
        (NotifyLink.drain (f.feed bytes)).2.2 .connected) E := by
  apply ensures_received h
  intro m' hadds hpolls hphase
  rw [hmore, if_neg (by simp), hopen] at hphase
  simp only [hmore, handOver, ensures_bind, ensures_ite, ensures_pure]
  refine (meets_deliverAll htell hpolls _).mono ?_ fun _ he ↦ he
  rintro all after ⟨hmeets, rfl⟩
  rw [hphase] at hmeets
  refine ⟨fun hgo ↦ ?_, fun _ ↦ hmeets.after hadds⟩
  rw [Bool.and_eq_true] at hgo
  obtain ⟨d', hd'⟩ := Option.isSome_iff_exists.1 hgo.1
  have hgoes := (meets_iff_goes hd').1 hmeets
  refine (goes_rearmWait hgoes.polls hgoes.socket hsends).mono ?_ fun _ he ↦ he
  rintro _ final ⟨hfinal, -⟩
  have hall := hfinal.after (hadds.trans hgoes.adds)
  rw [List.append_nil, List.nil_append] at hall
  exact (meets_iff_goes hd').2 hall

/-- On a connection that is closed with the last response, what was read is handed over, and the
session dials again unless it has ended. -/
theorem meets_received_of_closing (htell : Listens tell) (h : m.Polls p id k f d) {accepted : Bool}
    (haccepts : ∀ moment, p.accepts ⟨.notify, moment⟩ = accepted)
    (hclosing : (NotifyLink.drain (f.feed bytes)).2.1 = .closing) :
    Ensures (onNotify tell (.received bytes)) m (fun _ after ↦
      if accepted then m.Meets (d.notices (NotifyLink.drain (f.feed bytes)).1) p id k
        (NotifyLink.drain (f.feed bytes)).2.2 .connecting after
      else m.Ends (d.notices (NotifyLink.drain (f.feed bytes)).1).1 k after) E := by
  apply ensures_received h
  intro m' hadds hpolls hphase
  rw [hclosing, if_pos rfl] at hphase
  simp only [hclosing, handOver, ensures_bind, ensures_ite, ensures_pure]
  refine (meets_deliverAll htell hpolls _).mono ?_ fun _ he ↦ he
  rintro all after ⟨hmeets, rfl⟩
  rw [hphase] at hmeets
  have hsome : (NotifyLink.drain (f.feed bytes)).1.isEmpty = false := by
    simpa using NotifyLink.ne_nil_of_drain hclosing
  cases hd : (d.notices (NotifyLink.drain (f.feed bytes)).1).2 with
  | none =>
    refine ⟨fun hgo ↦ absurd hgo (by simp), fun _ ↦ ?_⟩
    have hends := Ends.after ((meets_iff_ends hd).1 hmeets) hadds
    split
    · exact (meets_iff_ends hd).2 hends
    · exact hends
  | some d' =>
    refine ⟨fun _ ↦ ?_, fun hnot ↦ absurd hnot (by simp [hsome])⟩
    have hgoes := (meets_iff_goes hd).1 hmeets
    refine (goes_or_ends_rearmWait htell hgoes.polls hgoes.socket).mono ?_ fun _ he ↦ he
    intro _ final hfinal
    rw [haccepts] at hfinal
    split
    · next haccepted =>
      rw [if_pos haccepted] at hfinal
      have hall := hfinal.after (hadds.trans hgoes.adds)
      rw [List.append_nil, List.nil_append] at hall
      exact (meets_iff_goes hd).2 hall
    · next hrefused =>
      rw [if_neg hrefused] at hfinal
      have hall := hfinal.after (hadds.trans hgoes.adds)
      rwa [List.append_nil, List.nil_append] at hall

end SessionM

end Rendezvous
