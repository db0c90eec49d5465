import Rendezvous.Proofs.Session.Polling.Runs
import Rendezvous.Proofs.Wire.Written

/-!
# Notifications, end to end

The server writes notifications one after another on the connection of the long poll. However their
bytes are cut, every one of them is brought to the session once, in order and as it was written:
payloads of other peers are told to the observer, and the directory follows those of the session's
own id. In the end the next wait is outstanding, or is dialled for where the last notification
announced a close.
-/

namespace Rendezvous

open Wire

/-- A notification as the server writes it, and the peer that it is about. -/
structure Notice where
  reply : Written
  peer : Int
  granted : reply.status = 200
  about : reply.peerId? = some peer

/-- The payload that an event tells of, with the peer that sent it. -/
def Event.payload? : Event → Option (Int × Bytes)
  | .message peer payload => some (peer, payload)
  | _ => none

namespace Notice

/-- Whether a notification is a payload for the observer of the peer with an id. -/
def IsPayload (own : Int) (x : Notice) : Prop := x.peer ≠ own ∧ x.reply.body ≠ hangUpToken

instance (own : Int) : DecidablePred (IsPayload own) := fun _ ↦ inferInstanceAs (Decidable (_ ∧ _))

end Notice

/-- Who is known to the peer with an id after an entry of the directory. A malformed one and its own
change nothing. -/
def Peer.Roster.enter (own : Int) (peers : Roster) (body : Bytes) : Roster :=
  match Entry.read? (Text.Utf8.decodeLossy body) with
  | none => peers
  | some entry =>
    if entry.id = own then peers
    else if entry.connected then peers.insert entry.id entry.name
    else peers.erase entry.id

/-- Who is known to the peer with an id after a notification: one under its own id is an entry of
the directory, and by one under another id this one may hang up. -/
def Peer.Roster.notice (own : Int) (peers : Roster) (x : Notice) : Roster :=
  if x.peer = own then peers.enter own x.reply.body
  else if x.reply.body = hangUpToken then peers.erase x.peer
  else peers

/-! ### The directory and the events -/

namespace Peer.Directory

variable {d d' d'' : Directory} {reports reports' : List Event}

/-- News after which the owner knows these peers, and these payloads have been told of. -/
structure Leads (d : Directory) (peers : Roster) (payloads : List (Int × Bytes))
    (news : List Event × Directory) : Prop where
  selfId : news.2.selfId = d.selfId
  peers : news.2.peers = peers
  absent : news.2.selfId ∉ news.2.peers
  payloads : news.1.filterMap Event.payload? = payloads

private theorem leads_nil (h : d.selfId ∉ d.peers) :
    d.Leads d.peers [] ([], d) := ⟨rfl, rfl, h, rfl⟩

private theorem Leads.trans {peers peers' : Roster} {payloads payloads' : List (Int × Bytes)}
    (h : d.Leads peers payloads (reports, d')) (h' : d'.Leads peers' payloads' (reports', d'')) :
    d.Leads peers' (payloads ++ payloads') (reports ++ reports', d'') where
  selfId := h'.selfId.trans h.selfId
  peers := h'.peers
  absent := h'.absent
  payloads := by rw [List.filterMap_append, h.payloads, h'.payloads]

private theorem leads_remove (h : d.selfId ∉ d.peers) (id : Int) :
    d.Leads (d.peers.erase id) [] ([.peerDisconnected id], (d.remove id).2) :=
  ⟨rfl, rfl, absent_remove h id, rfl⟩

private theorem erase_self (h : d.selfId ∉ d.peers) : d.peers.erase d.selfId = d.peers := by
  apply Std.ExtTreeMap.ext_getElem?
  intro id
  rw [Std.ExtTreeMap.getElem?_erase]
  split
  · next hown => rw [← Std.compare_eq_iff_eq.1 hown, Std.ExtTreeMap.getElem?_eq_none h]
  · rfl

private theorem leads_enter (h : d.selfId ∉ d.peers) (body : Bytes) :
    d.Leads (d.peers.enter d.selfId body) [] (d.enter body) := by
  rw [enter, Roster.enter]
  cases Entry.read? (Text.Utf8.decodeLossy body) with
  | none => exact leads_nil h
  | some entry =>
    obtain ⟨name, id, connected⟩ := entry
    have habsent := absent_add h id name
    have hleft := leads_remove h id
    by_cases hown : id = d.selfId
    · subst hown
      rw [erase_self h] at hleft
      cases connected <;> simp only [add_self, if_true, Bool.false_eq_true, if_false]
      · exact hleft
      · exact leads_nil h
    · rw [add_of_ne hown] at habsent
      cases connected <;>
        simp only [add_of_ne hown, if_neg hown, if_true, Bool.false_eq_true, if_false]
      · exact hleft
      · exact ⟨rfl, rfl, habsent, rfl⟩

private theorem leads_take (h : d.selfId ∉ d.peers) (peer : Int) (payload : Bytes) :
    d.Leads (if payload = hangUpToken then d.peers.erase peer else d.peers)
      (if payload = hangUpToken then [] else [(peer, payload)]) (d.take peer payload) := by
  rw [take]
  split
  · exact leads_remove h peer
  · exact ⟨rfl, rfl, h, rfl⟩

/-- A notification has the owner know of others what it should, and tells of a payload just where it
is one. -/
theorem leads_notice (h : d.selfId ∉ d.peers) (x : Notice) :
    ∃ news, d.notice? x.reply.response = some news ∧ d.Leads (d.peers.notice d.selfId x)
      (if x.IsPayload d.selfId then [(x.peer, x.reply.body)] else []) news := by
  have hok : x.reply.response.isOk = true := by
    rw [x.reply.isOk_response, x.granted]
    rfl
  have hnotice : d.notice? x.reply.response =
      some (if x.peer = d.selfId then d.enter x.reply.body else d.take x.peer x.reply.body) := by
    rw [notice?, hok, x.reply.peerId?_response, x.about]
    rfl
  refine ⟨_, hnotice, ?_⟩
  rw [Roster.notice]
  by_cases hown : x.peer = d.selfId
  · rw [if_pos hown, if_pos hown, if_neg fun hpayload ↦ hpayload.1 hown]
    exact leads_enter h _
  · have htaken := leads_take h x.peer x.reply.body
    rw [if_neg hown, if_neg hown]
    by_cases hbye : x.reply.body = hangUpToken
    · rw [if_pos hbye, if_pos hbye] at htaken
      rwa [if_pos hbye, if_neg fun hpayload ↦ hpayload.2 hbye]
    · rw [if_neg hbye, if_neg hbye] at htaken
      rwa [if_neg hbye, if_pos ⟨hown, hbye⟩]

/-- So do notifications in order. -/
theorem leads_notices (h : d.selfId ∉ d.peers) (sent : List Notice) :
    ∃ reports d', d.notices (sent.map (·.reply.response)) = (reports, some d') ∧
      d.Leads (sent.foldl (Roster.notice d.selfId) d.peers)
        ((sent.filter (Notice.IsPayload d.selfId)).map fun x ↦ (x.peer, x.reply.body))
        (reports, d') := by
  induction sent generalizing d with
  | nil => exact ⟨[], d, rfl, leads_nil h⟩
  | cons x rest ih =>
    obtain ⟨⟨reports, d'⟩, hnotice, hleads⟩ := leads_notice h x
    obtain ⟨reports', d'', hnotices, hrest⟩ := ih hleads.absent
    refine ⟨reports ++ reports', d'', ?_, ?_⟩
    · rw [List.map_cons, notices_cons_of_some hnotice, hnotices]
    · have hall := hleads.trans hrest
      rw [hleads.selfId, hleads.peers] at hall
      by_cases hpayload : x.IsPayload d.selfId
      · rw [if_pos hpayload] at hall
        rwa [List.foldl_cons, List.filter_cons_of_pos (by simpa using hpayload)]
      · rw [if_neg hpayload] at hall
        rwa [List.foldl_cons, List.filter_cons_of_neg (by simpa using hpayload)]

end Peer.Directory

/-! ### Reading the stream -/

namespace NotifyLink

/-- What is read of responses as they are written, none of which announces a close but perhaps the
last: these responses, with nothing left. -/
theorem drain_encode (limit : Option Int) (hroom : ∀ max ∈ limit, 0 ≤ max) {sent : List Written}
    (hstays : ∀ w ∈ sent.dropLast, w.closes = false) :
    drain ⟨limit, sent.flatMap Written.encode⟩ = (sent.map Written.response,
      if sent.getLast?.any Written.closes then .closing else .more, ⟨limit, []⟩) := by
  induction sent with
  | nil => exact drain_of_none (next?_of_empty (f := ⟨limit, []⟩) hroom)
  | cons w rest ih =>
    have hnext := w.next?_encode limit (rest.flatMap Written.encode)
    rw [List.flatMap_cons]
    cases rest with
    | nil =>
      cases hcloses : w.closes with
      | true =>
        rw [drain_of_closes hnext (w.closes_response.trans hcloses)]
        simp [hcloses, Framer.reset]
      | false =>
        rw [drain_of_stays hnext (w.closes_response.trans hcloses)]
        have hempty := drain_of_none (next?_of_empty (f := ⟨limit, []⟩) hroom)
        rw [List.flatMap_nil]
        simp [hcloses, hempty]
    | cons next rest =>
      have hw : w.closes = false := hstays w (by simp)
      have hrest := ih fun w' hw' ↦ hstays w' (by simp [hw'])
      rw [drain_of_stays hnext (w.closes_response.trans hw), hrest]
      simp

/-- What is read of notifications: each of them, with nothing left. -/
theorem drain_notices {max : Int} (hroom : 0 ≤ max) {sent : List Notice}
    (hstays : ∀ x ∈ sent.dropLast, x.reply.closes = false) :
    drain ⟨some max, sent.flatMap (·.reply.encode)⟩ = (sent.map (·.reply.response),
      if sent.getLast?.any (·.reply.closes) then .closing else .more, ⟨some max, []⟩) := by
  have hreplies : ∀ w ∈ (sent.map Notice.reply).dropLast, w.closes = false := by
    rw [← List.map_dropLast, List.forall_mem_map]
    exact hstays
  have hdrain := drain_encode (some max) (by simpa using hroom) hreplies
  rwa [List.flatMap_map, List.map_map, List.getLast?_map, Option.any_map] at hdrain

end NotifyLink

/-! ### The next wait -/

namespace SessionM

open Machine

variable {tell : Event → SessionM Unit} {m : Machine} {p : Policy} {id : Int} {k : Nat}
  {f : Framer} {d : Peer.Directory} {bytes : Bytes} {E : Machine → Prop}

/-- Bytes that bring a notification have the next wait put in place, and without one the wait stays
as it is. -/
theorem waits_received (htell : Listens tell) (h : m.Polls p id k f d)
    (hopen : m.host.phaseOf k = .connected)
    (hsends : ∀ moment, p.sends ⟨.notify, moment⟩ = true)
    (hmore : (NotifyLink.drain (f.feed bytes)).2.1 = .more) :
    Ensures (onNotify tell (.received bytes)) m (fun _ after ↦ after.session.phase = .connected →
      (NotifyLink.drain (f.feed bytes)).1 ≠ [] ∨ m.Waits k → after.Waits k) E := by
  by_cases hnone : (NotifyLink.drain (f.feed bytes)).1 = []
  · obtain ⟨n, hn, rfl, rfl⟩ := h.notify
    rw [onNotify, ensures_bind, ensures_withNotify_of_eq hn]
    rcases hread : NotifyLink.drain (n.framer.feed bytes) with ⟨responses, outcome, framer⟩
    obtain rfl : responses = [] := (congrArg Prod.fst hread).symm.trans hnone
    obtain rfl : outcome = .more := (congrArg (·.2.1) hread).symm.trans hmore
    simp only [NotifyLink.receive, hread, deliverAll, List.isEmpty_nil, Bool.and_true,
      Bool.not_true, ensures_bind, ensures_ite, ensures_pure]
    refine ⟨fun hfalse ↦ absurd hfalse (by simp), fun _ _ hwaits ↦ ?_⟩
    obtain ⟨n', hn', -, hwaiting⟩ := hwaits.resolve_left (absurd rfl)
    cases hn.symm.trans hn'
    exact ⟨_, rfl, rfl, hwaiting⟩
  · apply ensures_received h
    intro m' _ hpolls hphase
    rw [hmore, if_neg (by simp), hopen] at hphase
    simp only [hmore, handOver, ensures_bind, ensures_ite, ensures_pure]
    refine (meets_deliverAll htell hpolls _).mono ?_ fun _ he ↦ he
    rintro all after ⟨hmeets, rfl⟩
    rw [hphase] at hmeets
    cases hd : (d.notices (NotifyLink.drain (f.feed bytes)).1).2 with
    | none =>
      have hends := (meets_iff_ends hd).1 hmeets
      refine ⟨fun hgo ↦ absurd hgo (by simp), fun _ hconnected ↦ ?_⟩
      cases hconnected.symm.trans hends.ended.phase
    | some d' =>
      have hgoes := (meets_iff_goes hd).1 hmeets
      refine ⟨fun _ ↦ ?_, fun hnot ↦ absurd hnot (by simpa using hnone)⟩
      exact (goes_rearmWait hgoes.polls hgoes.socket hsends).mono
        (fun _ _ hrearmed _ _ ↦ hrearmed.2) fun _ he ↦ he

end SessionM

namespace Machine

open SessionM

variable {m : Machine} {p : Policy} {id : Int} {k : Nat} {f : Framer} {d d' : Peer.Directory}
  {chunk : Bytes}

private theorem Polls.waits_of_more (h : m.Polls p id k f d) (hopen : m.host.phaseOf k = .connected)
    (hsends : ∀ moment, p.sends ⟨.notify, moment⟩ = true)
    (hmore : (NotifyLink.drain (f.feed chunk)).2.1 = .more) {depth : Nat}
    (hphase : (m.step .silent depth
      (.socket (.number k) (.received chunk))).2.session.phase = .connected)
    (hsome : (NotifyLink.drain (f.feed chunk)).1 ≠ [] ∨ m.Waits k) :
    (m.step .silent depth (.socket (.number k) (.received chunk))).2.Waits k := by
  rw [h.step_received_eq hopen] at hphase ⊢
  have hreceived := waits_received (E := fun after ↦ after.session.phase = .connected →
    (NotifyLink.drain (f.feed chunk)).1 ≠ [] ∨ m.Waits k → after.Waits k)
      (listens_silent depth) h hopen hsends hmore
  exact ensures_const.1 hreceived hphase hsome

/-- Chunks of a stream that can be framed and ends no session. What comes of them is what comes of
the stream read at one go: the notifications in it are reported and entered in order, and the next
wait is outstanding or dialled for. The induction is on the chunks. -/
theorem goes_deliver {chunks : List Bytes} (hsends : ∀ moment, p.sends ⟨.notify, moment⟩ = true)
    (haccepts : ∀ moment, p.accepts ⟨.notify, moment⟩ = true) (h : m.Polls p id k f d)
    (hopen : m.host.phaseOf k = .connected) (hready : chunks ≠ [] ∨ f.next? = .ok none)
    (hfits : NotifyLink.Fits (f.feed chunks.flatten))
    (hframed : ¬ (NotifyLink.drain (f.feed chunks.flatten)).2.1.IsFailure)
    (hd : (d.notices (NotifyLink.drain (f.feed chunks.flatten)).1).2 = some d') (depth : Nat) :
    m.Goes (d.notices (NotifyLink.drain (f.feed chunks.flatten)).1).1 p id k
        (NotifyLink.drain (f.feed chunks.flatten)).2.2 d'
        (if (NotifyLink.drain (f.feed chunks.flatten)).2.1 = .closing then .connecting
          else .connected) (m.deliver depth k chunks) ∧
      ((NotifyLink.drain (f.feed chunks.flatten)).2.1 = .more →
        (NotifyLink.drain (f.feed chunks.flatten)).1 ≠ [] ∨ m.Waits k →
          (m.deliver depth k chunks).Waits k) := by
  induction chunks generalizing m f d with
  | nil =>
    have hfeed : f.feed [] = f := by simp [Framer.feed]
    rw [List.flatten_nil, hfeed, NotifyLink.drain_of_none (hready.resolve_left (by simp))] at hd ⊢
    cases hd
    exact ⟨⟨.refl m, h, hopen⟩, fun _ hwaits ↦ hwaits.resolve_left (absurd rfl)⟩
  | cons chunk rest ih =>
    rw [List.flatten_cons, ← Framer.feed_feed] at hfits hframed hd ⊢
    rw [deliver_cons hopen]
    cases hout : (NotifyLink.drain (f.feed chunk)).2.1 with
    | more =>
      have hmeets := h.meets_of_more hopen hsends hout depth
      have hnext := NotifyLink.next?_drain hout
      have hrest := hfits.of_more hout
      rw [NotifyLink.drain_feed_of_more hout] at hframed hd ⊢
      cases hd' : (d.notices (NotifyLink.drain (f.feed chunk)).1).2 with
      | none =>
        rw [Peer.Directory.notices_append_of_over hd', hd'] at hd
        cases hd
      | some d₁ =>
        have hgoes := (meets_iff_goes hd').1 hmeets
        rw [Peer.Directory.notices_append hd'] at hd ⊢
        obtain ⟨hlater, hlast⟩ := ih hgoes.polls hgoes.socket (.inr hnext) hrest hframed hd
        refine ⟨hlater.after hgoes.adds, fun hmore hsome ↦ hlast hmore ?_⟩
        by_cases hnone : (NotifyLink.drain ((NotifyLink.drain (f.feed chunk)).2.2.feed
            rest.flatten)).1 = []
        · rw [hnone, List.append_nil] at hsome
          exact .inr (h.waits_of_more hopen hsends hout hgoes.polls.phase hsome)
        · exact .inl hnone
    | closing =>
      have hmeets := h.meets_of_closing hopen haccepts hout depth
      rw [NotifyLink.drain_feed_of_closing hout] at hd ⊢
      have hgoes := (meets_iff_goes hd).1 hmeets
      rw [hout, if_pos rfl, deliver_of_shut (hgoes.socket ▸ Channel.Phase.noConfusion)]
      exact ⟨hgoes, NotifyLink.Outcome.noConfusion⟩
    | failed e =>
      have hfailed : (NotifyLink.drain (f.feed chunk)).2.1.IsFailure := hout ▸ trivial
      exact absurd (NotifyLink.drain_feed_of_failed hfailed _ hfits).2 hframed

/-- Notifications, none too large and none announcing a close but perhaps the last, come to a
connected session on the open and empty connection of its long poll, over sockets that can be
dialled and written to. However they are cut, the observer is told of their payloads, each once, in
order and to the byte; the directory is as they lead it one after another; and the session is still
connected, with a wait outstanding if there was one or a notification came, or dialling again after
an announced close. The limit is asked not to be negative only where there is no notification to
fit under it: a negative one refuses even an empty chunk. -/
theorem notices_arrive {config : Config} {observed : Bool} {policy : Policy} {o : Observer}
    {depth : Nat} {past : List Step} {n : NotifyLink} {sent : List Notice}
    (hrun : run o depth (fresh config observed policy) past = m)
    (hobserved : m.observed = true) (hphase : m.session.phase = .connected)
    (hnotify : m.session.notify = some n) (hempty : n.framer.buffer = [])
    (hopen : m.host.phaseOf n.socket = .connected)
    (hsends : ∀ moment, m.host.policy.sends ⟨.notify, moment⟩ = true)
    (haccepts : ∀ moment, m.host.policy.accepts ⟨.notify, moment⟩ = true)
    (hroom : sent = [] → 0 ≤ config.maxResponseSize)
    (hfits : ∀ x ∈ sent, (x.reply.encode.length : Int) ≤ config.maxResponseSize)
    (hstays : ∀ x ∈ sent.dropLast, x.reply.closes = false)
    (cut : Cutting (sent.flatMap (·.reply.encode))) (depth' : Nat) :
    let out := m.deliver depth' n.socket cut.chunks
    let own := m.session.selfId
    (heardIn (m.newLines out)).filterMap Event.payload? =
      (sent.filter (Notice.IsPayload own)).map (fun x ↦ (x.peer, x.reply.body)) ∧
    out.session.directory.peers =
      sent.foldl (Peer.Roster.notice own) m.session.directory.peers ∧
    out.session.phase = .connected ∧ out.session.selfId = own ∧
    out.session.directory.selfId = own ∧
    if sent.getLast?.any (·.reply.closes) then out.host.phaseOf n.socket = .connecting
    else out.host.phaseOf n.socket = .connected ∧
      (sent ≠ [] ∨ n.waiting = true → out.Waits n.socket) := by
  intro out own
  have hsound : m.IsSound config := hrun ▸ isSound_run config observed policy o depth past
  have hpolls := hsound.polls hobserved hphase hnotify
  have hlimit : n.framer.limit = some config.maxResponseSize := (hsound.notify n hnotify).1
  have hlarge : 0 ≤ config.maxResponseSize := by
    cases sent with
    | nil => exact hroom rfl
    | cons x rest => exact Int.le_trans (Int.natCast_nonneg _) (hfits x List.mem_cons_self)
  have hread : NotifyLink.drain (n.framer.feed cut.chunks.flatten) =
      (sent.map (·.reply.response),
        if sent.getLast?.any (·.reply.closes) then .closing else .more,
        ⟨some config.maxResponseSize, []⟩) := by
    rw [cut.flatten_chunks, Framer.feed, hempty, hlimit]
    exact NotifyLink.drain_notices hlarge hstays
  have hwithin : NotifyLink.Fits (n.framer.feed cut.chunks.flatten) := by
    intro max hmax response hmem
    have hmax' : n.framer.limit = some max := hmax
    cases hlimit.symm.trans hmax'
    rw [hread, List.mem_map] at hmem
    obtain ⟨x, hx, rfl⟩ := hmem
    rw [x.reply.raw_response]
    exact hfits x hx
  have hframed : ¬ (NotifyLink.drain (n.framer.feed cut.chunks.flatten)).2.1.IsFailure := by
    rw [hread]
    simp only
    split <;> exact id
  have habsent : m.session.directory.selfId ∉ m.session.directory.peers :=
    hsound.session.own ▸ hsound.session.absent
  obtain ⟨reports, d', hnotices, hleads⟩ := Peer.Directory.leads_notices habsent sent
  have hd : (m.session.directory.notices
      (NotifyLink.drain (n.framer.feed cut.chunks.flatten)).1).2 = some d' := by
    rw [hread, hnotices]
  obtain ⟨hgoes, hwaits⟩ := goes_deliver hsends haccepts hpolls hopen (.inl cut.ne_nil) hwithin
    hframed hd depth'
  rw [hread] at hgoes hwaits
  rw [hnotices] at hgoes
  rw [hsound.session.own] at hleads
  refine ⟨?_, ?_, hgoes.polls.phase, hgoes.polls.selfId, ?_, ?_⟩
  · rw [hgoes.adds.heardIn_newLines]
    exact hleads.payloads
  · rw [hgoes.polls.directory]
    exact hleads.peers
  · rw [hgoes.polls.directory]
    exact hleads.selfId.trans hsound.session.own
  · have hsocket := hgoes.socket
    by_cases hcloses : sent.getLast?.any (·.reply.closes) = true
    · rw [if_pos hcloses, if_pos rfl] at hsocket
      rwa [if_pos hcloses]
    · rw [if_neg hcloses, if_neg NotifyLink.Outcome.noConfusion] at hsocket
      rw [if_neg hcloses] at hwaits ⊢
      refine ⟨hsocket, fun hsome ↦ hwaits rfl (hsome.imp ?_ ?_)⟩
      · simp
      · exact fun hwaiting ↦ ⟨n, hnotify, rfl, hwaiting⟩

/-- The field that announces that the connection is closed. -/
def closeField : Field :=
  ⟨Bytes.ofAscii "Connection", Bytes.ofAscii " close", by decide, by decide, by decide⟩

/-- A peer joins, another one sends what looks like a head, and the first one hangs up on a
connection that is then closed. -/
def joinedAndLeft : List Notice := [
  { reply := {
      statusLine := grantedLine
      fields := [.pragma 7, .contentLength 9]
      body := Bytes.ofAscii "carol,8,1"
      unbroken := cr_notMem_grantedLine
      announced := by decide +kernel }
    peer := 7
    granted := by decide +kernel
    about := by decide +kernel },
  { reply := {
      statusLine := grantedLine
      fields := [.contentLength 4, .pragma 9]
      body := headEnd
      unbroken := cr_notMem_grantedLine
      announced := by decide +kernel }
    peer := 9
    granted := by decide +kernel
    about := by decide +kernel },
  { reply := {
      statusLine := grantedLine
      fields := [.pragma 8, closeField, .contentLength 3]
      body := hangUpToken
      unbroken := cr_notMem_grantedLine
      announced := by decide +kernel }
    peer := 8
    granted := by decide +kernel
    about := by decide +kernel } ]

/-- Cut within the first head: only the payload is told of, and the long poll is dialled again. -/
theorem notices_arrive_joinedAndLeft :
    let m := run .silent 0 (fresh (Config.standard "alice") true {}) polling
    let n : NotifyLink := { socket := 1, framer := { limit := some 1048576 }, waiting := true }
    let stream := joinedAndLeft.flatMap (·.reply.encode)
    let out := m.deliver 0 1 [stream.take 70, stream.drop 70]
    (m.observed = true ∧ m.session.phase = .connected ∧ m.session.notify = some n ∧
      m.host.phaseOf 1 = .connected) ∧
    (∀ moment, m.host.policy.sends ⟨.notify, moment⟩ = true ∧
      m.host.policy.accepts ⟨.notify, moment⟩ = true) ∧
    (∀ x ∈ joinedAndLeft,
      (x.reply.encode.length : Int) ≤ (Config.standard "alice").maxResponseSize) ∧
    (∀ x ∈ joinedAndLeft.dropLast, x.reply.closes = false) ∧
    (heardIn (m.newLines out)).filterMap Event.payload? = [(9, headEnd)] ∧
    out.session.phase = .connected ∧ out.host.phaseOf 1 = .connecting := by
  intro m n stream out
  have hstart : m.observed = true ∧ m.session.phase = .connected ∧ m.session.notify = some n ∧
      m.host.phaseOf 1 = .connected := by
    decide +kernel
  have hpolicy : m.host.policy = {} := policy_run _ (by decide) 0
  have hgrants : ∀ moment, m.host.policy.sends ⟨.notify, moment⟩ = true ∧
      m.host.policy.accepts ⟨.notify, moment⟩ = true := by
    simp [hpolicy]
  have hfits : ∀ x ∈ joinedAndLeft,
      (x.reply.encode.length : Int) ≤ (Config.standard "alice").maxResponseSize := by
    decide +kernel
  have hstays : ∀ x ∈ joinedAndLeft.dropLast, x.reply.closes = false := by
    decide +kernel
  obtain ⟨hobserved, hphase, hnotify, hopen⟩ := hstart
  obtain ⟨hpayloads, -, hconnected, -, -, hsocket⟩ := notices_arrive rfl hobserved hphase hnotify
    rfl hopen (fun moment ↦ (hgrants moment).1) (fun moment ↦ (hgrants moment).2)
    (fun hnone ↦ by cases hnone) hfits hstays
    ⟨[stream.take 70, stream.drop 70], by simp, by simp [stream]⟩ 0
  have hself : m.session.selfId = 7 := by decide +kernel
  have hcloses : joinedAndLeft.getLast?.any (·.reply.closes) = true := by decide +kernel
  rw [hself] at hpayloads
  rw [if_pos hcloses] at hsocket
  exact ⟨⟨hobserved, hphase, hnotify, hopen⟩, hgrants, hfits, hstays,
    hpayloads.trans (by decide +kernel), hconnected, hsocket⟩

end Machine

end Rendezvous
