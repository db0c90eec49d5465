import Rendezvous.Proofs.Session.Episode.Runs
import Rendezvous.Proofs.Session.Polling.Reports
import Rendezvous.Proofs.Session.Restart.Runs
import Rendezvous.Proofs.Session.Sound

/-!
# What is heard of the long poll

However the server's stream on the long poll is cut into chunks, the session comes to the same end,
and as long as the stream can be framed its observer hears the same. Where the stream cannot be
framed, the session ends, and of the notifications before that only those are heard that came with
earlier chunks: all of them are where the bytes come one by one.
-/

namespace Rendezvous

open Wire

namespace NotifyLink

/-- Whether a session outlives the reading of a stream, given whether it can dial again. -/
def Outcome.leaves (accepted : Bool) : Outcome → Bool
  | .more => true
  | .closing => accepted
  | .failed _ => false

end NotifyLink

namespace Machine

open SessionM

variable {m m' m'' : Machine} {p : Policy} {id : Int} {k : Nat} {f : Framer}
  {d : Peer.Directory} {reports : List Event} {depth : Nat}

/-- The machine after chunks are received on a socket, as long as the client does not close it. -/
def deliver (depth k : Nat) (m : Machine) : List Bytes → Machine
  | [] => m
  | chunk :: rest =>
    if m.host.phaseOf k = .connected then
      deliver depth k (m.step .silent depth (.socket (.number k) (.received chunk))).2 rest
    else m

/-- Over a socket that is not open nothing is delivered. -/
theorem deliver_of_shut (h : m.host.phaseOf k ≠ .connected) (depth : Nat) (chunks : List Bytes) :
    m.deliver depth k chunks = m := by
  cases chunks with
  | nil => rfl
  | cons chunk rest => exact if_neg h

/-- Over an open socket the first chunk is delivered, and then the others. -/
theorem deliver_cons (h : m.host.phaseOf k = .connected) (depth : Nat) (chunk : Bytes)
    (rest : List Bytes) : m.deliver depth k (chunk :: rest) =
      (m.step .silent depth (.socket (.number k) (.received chunk))).2.deliver depth k rest :=
  if_pos h

/-- Bytes on a connected socket go to the link that the socket belongs to, and nothing else
happens. -/
theorem step_received_eq {o : Observer} (hopen : m.host.phaseOf k = .connected) (bytes : Bytes) :
    (m.step o depth (.socket (.number k) (.received bytes))).2 =
      after (if m.session.command.any (·.socket = k) then
        onCommand (o.tell depth) (.received bytes)
      else if m.session.notify.any (·.socket = k) then
        onNotify (o.tell depth) (.received bytes)
      else pure ()) m := by
  have hmade : k < m.host.sockets.length := by
    apply Nat.lt_of_not_le
    intro hle
    cases hopen.symm.trans (Host.phaseOf_eq_closed_of_le hle)
  have hfound : m.find? (.number k) = some k := if_pos hmade
  have hsame : m.host.setPhase k ((m.host.phaseOf k).after (.received bytes)) = m.host := by
    rw [hopen]
    exact hopen ▸ m.host.setPhase_phaseOf k
  rw [Machine.step, runWith_snd]
  apply after_eq
  simp only [Machine.react, onSocket, ensures_bind, ensures_get, hfound, ensures_modify, hsame,
    ensures_pure]
  exact (ensures_const (P := (· = _))).2 rfl

/-! ### Chunks on the long poll -/

/-- The bytes of a chunk go to the notify link. -/
theorem Polls.step_received_eq (h : m.Polls p id k f d) (hopen : m.host.phaseOf k = .connected)
    (depth : Nat) (bytes : Bytes) :
    (m.step .silent depth (.socket (.number k) (.received bytes))).2 =
      after (onNotify (Observer.silent.tell depth) (.received bytes)) m := by
  obtain ⟨n, hn, hsocket, -⟩ := h.notify
  have hnotify : m.session.notify.any (·.socket = k) = true := by
    rw [hn, Option.any_some, hsocket]
    exact decide_eq_true rfl
  rw [Machine.step_received_eq hopen, h.command, if_neg Bool.false_ne_true, hnotify, if_pos rfl]

variable {chunk : Bytes} {accepted : Bool}

/-- A chunk that leaves the stream open meets the notices in it, and writes the next wait. -/
theorem Polls.meets_of_more (h : m.Polls p id k f d) (hopen : m.host.phaseOf k = .connected)
    (hsends : ∀ moment, p.sends ⟨.notify, moment⟩ = true)
    (hmore : (NotifyLink.drain (f.feed chunk)).2.1 = .more) (depth : Nat) :
    m.Meets (d.notices (NotifyLink.drain (f.feed chunk)).1) p id k
      (NotifyLink.drain (f.feed chunk)).2.2 .connected
      (m.step .silent depth (.socket (.number k) (.received chunk))).2 := by
  rw [h.step_received_eq hopen]
  exact ensures_const.1 (meets_received_of_more (listens_silent depth) h hopen hsends hmore)

/-- A chunk with a response that closes meets the notices in it, and dials again. -/
theorem Polls.meets_of_closing (h : m.Polls p id k f d) (hopen : m.host.phaseOf k = .connected)
    (haccepts : ∀ moment, p.accepts ⟨.notify, moment⟩ = true)
    (hclosing : (NotifyLink.drain (f.feed chunk)).2.1 = .closing) (depth : Nat) :
    m.Meets (d.notices (NotifyLink.drain (f.feed chunk)).1) p id k
      (NotifyLink.drain (f.feed chunk)).2.2 .connecting
      (m.step .silent depth (.socket (.number k) (.received chunk))).2 := by
  rw [h.step_received_eq hopen]
  exact ensures_const.1 (meets_received_of_closing (listens_silent depth) h haccepts hclosing)

private theorem Polls.ends_of_closing (h : m.Polls p id k f d)
    (hopen : m.host.phaseOf k = .connected)
    (haccepts : ∀ moment, p.accepts ⟨.notify, moment⟩ = false)
    (hclosing : (NotifyLink.drain (f.feed chunk)).2.1 = .closing) (depth : Nat) :
    m.Ends (d.notices (NotifyLink.drain (f.feed chunk)).1).1 k
      (m.step .silent depth (.socket (.number k) (.received chunk))).2 := by
  rw [h.step_received_eq hopen]
  exact ensures_const.1 (meets_received_of_closing (listens_silent depth) h haccepts hclosing)

private theorem Polls.ends_of_failed (h : m.Polls p id k f d)
    (hopen : m.host.phaseOf k = .connected)
    (hfailed : (NotifyLink.drain (f.feed chunk)).2.1.IsFailure) (depth : Nat) :
    m.Ends [] k (m.step .silent depth (.socket (.number k) (.received chunk))).2 := by
  rw [h.step_received_eq hopen]
  exact ensures_const.1 (ends_received (listens_silent depth) h hfailed)

/-- What delivery comes to, with a directory if the session outlives it. -/
def Comes (before : Machine) (id : Int) (reports : List Event) (fate : Option Peer.Directory)
    (after : Machine) : Prop :=
  match fate with
  | none => before.Adds (reports ++ [.disconnected]) after ∧ after.session.IsReset
  | some d => before.Adds reports after ∧ after.session.phase = .connected ∧
      after.session.selfId = id ∧ after.session.directory = d

private theorem Comes.after {fate : Option Peer.Directory} {reports' : List Event}
    (h : m'.Comes id reports' fate m'') (hadds : m.Adds reports m') :
    m.Comes id (reports ++ reports') fate m'' := by
  cases fate with
  | none => exact ⟨List.append_assoc _ _ _ ▸ hadds.trans h.1, h.2⟩
  | some d => exact ⟨hadds.trans h.1, h.2⟩

/-- A session that ended hears nothing of what follows. -/
theorem Ends.comes (h : m.Ends reports k m') (depth : Nat) (chunks : List Bytes) :
    m.Comes id reports none (m'.deliver depth k chunks) := by
  rw [deliver_of_shut (by simp [h.closed])]
  exact ⟨h.adds, h.ended⟩

private theorem Goes.comes {phase : Channel.Phase} (h : m.Goes reports p id k f d phase m')
    (hshut : phase ≠ .connected) (depth : Nat) (chunks : List Bytes) :
    m.Comes id reports (some d) (m'.deliver depth k chunks) := by
  rw [deliver_of_shut (h.socket ▸ hshut)]
  exact ⟨h.adds, h.polls.phase, h.polls.selfId, h.polls.directory⟩

/-- The directory of a session that outlives notifications and the way in which they ended. -/
def fate (accepted : Bool) (o : NotifyLink.Outcome) (d : Option Peer.Directory) :
    Option Peer.Directory :=
  if o.leaves accepted then d else none

private theorem fate_of_failed {accepted : Bool} {o : NotifyLink.Outcome} (h : o.IsFailure)
    (d : Option Peer.Directory) : fate accepted o d = none := by
  cases o with
  | more => exact h.elim
  | closing => exact h.elim
  | failed e => rfl

/-- What is heard of a delivery, and what becomes of the session, goes by the responses that are
handed over and by how it ended. The induction is on the chunks. -/
theorem comes_deliver (hsends : ∀ moment, p.sends ⟨.notify, moment⟩ = true)
    (haccepts : ∀ moment, p.accepts ⟨.notify, moment⟩ = accepted) (h : m.Polls p id k f d)
    (hopen : m.host.phaseOf k = .connected) (depth : Nat) (chunks : List Bytes) :
    m.Comes id (d.notices (NotifyLink.handed f chunks).1).1
      (fate accepted (NotifyLink.handed f chunks).2 (d.notices (NotifyLink.handed f chunks).1).2)
      (m.deliver depth k chunks) := by
  induction chunks generalizing m f d with
  | nil => exact ⟨.refl m, h.phase, h.selfId, h.directory⟩
  | cons chunk rest ih =>
    rw [deliver_cons hopen]
    cases hout : (NotifyLink.drain (f.feed chunk)).2.1 with
    | more =>
      have hmeets := h.meets_of_more hopen hsends hout depth
      rw [NotifyLink.handed_of_more hout]
      cases hd : (d.notices (NotifyLink.drain (f.feed chunk)).1).2 with
      | none =>
        have hover := Peer.Directory.notices_append_of_over hd
          (NotifyLink.handed (NotifyLink.drain (f.feed chunk)).2.2 rest).1
        have hfate (o : NotifyLink.Outcome) : fate accepted o none = none := ite_self none
        rw [hover, hd, hfate]
        exact ((meets_iff_ends hd).1 hmeets).comes depth rest
      | some d' =>
        have hgoes := (meets_iff_goes hd).1 hmeets
        rw [Peer.Directory.notices_append hd]
        exact (ih hgoes.polls hgoes.socket).after hgoes.adds
    | closing =>
      rw [NotifyLink.handed_of_closing hout]
      cases accepted with
      | true =>
        have hmeets := h.meets_of_closing hopen haccepts hout depth
        cases hd : (d.notices (NotifyLink.drain (f.feed chunk)).1).2 with
        | none => exact ((meets_iff_ends hd).1 hmeets).comes depth rest
        | some d' =>
          exact ((meets_iff_goes hd).1 hmeets).comes Channel.Phase.noConfusion depth rest
      | false => exact (h.ends_of_closing hopen haccepts hout depth).comes depth rest
    | failed e =>
      have hfailed : (NotifyLink.drain (f.feed chunk)).2.1.IsFailure := hout ▸ trivial
      obtain ⟨hnone, hlost⟩ := NotifyLink.handed_of_failed hfailed rest
      rw [hnone, fate_of_failed hlost]
      exact (h.ends_of_failed hopen hfailed depth).comes depth rest

/-- Two deliveries that come to the same. -/
theorem Comes.agree {fate : Option Peer.Directory} {reports' : List Event}
    (h : m.Comes id reports fate m') (h' : m.Comes id reports' fate m'') :
    m'.session.phase = m''.session.phase ∧ m'.session.selfId = m''.session.selfId ∧
      m'.session.directory = m''.session.directory := by
  cases fate with
  | none =>
    exact ⟨h.2.phase.trans h'.2.phase.symm, h.2.selfId.trans h'.2.selfId.symm,
      h.2.directory.trans h'.2.directory.symm⟩
  | some d =>
    exact ⟨h.2.1.trans h'.2.1.symm, h.2.2.1.trans h'.2.2.1.symm, h.2.2.2.trans h'.2.2.2.symm⟩

private theorem Comes.heardIn_newLines {fate : Option Peer.Directory}
    (h : m.Comes id reports fate m') : heardIn (m.newLines m') =
      if fate = none then reports ++ [.disconnected] else reports := by
  cases fate with
  | none => exact h.1.heardIn_newLines
  | some d => exact h.1.heardIn_newLines

/-- A connected session polls, with a socket of its own for it. -/
theorem IsSound.polls {config : Config} (h : m.IsSound config) (hobserved : m.observed = true)
    (hphase : m.session.phase = .connected) {n : NotifyLink} (hn : m.session.notify = some n) :
    m.Polls m.host.policy m.session.selfId n.socket n.framer m.session.directory where
  observed := hobserved
  phase := hphase
  selfId := rfl
  writable := h.session.writable
  directory := rfl
  own := h.session.own
  command := by
    apply Bool.eq_false_iff.2
    intro hany
    obtain ⟨c, hc, hsame⟩ := (Option.any_eq_true _ _).1 hany
    have hcommand := h.command c.socket (hc ▸ rfl)
    rw [of_decide_eq_true hsame, (h.notify n hn).2] at hcommand
    cases hcommand
  notify := ⟨n, hn, rfl, rfl⟩
  role := (h.notify n hn).2
  policy := rfl

/-- The server's stream on the open and empty connection of the long poll, in which no response is
too large, is brought to a connected session in chunks, up to where the client closes the
connection. However it is cut, the session comes to the same end; as long as it can be framed, the
observer hears the same; and where it cannot, the observer hears an initial part of what it hears if
the bytes come one by one, before it hears of the end. -/
theorem delivery_of_chunks {config : Config} {observed : Bool} {policy : Policy} {o : Observer}
    {depth : Nat} {past : List Step} {m : Machine} {n : NotifyLink} {stream : Bytes}
    {accepted : Bool} (hrun : run o depth (fresh config observed policy) past = m)
    (hobserved : m.observed = true) (hphase : m.session.phase = .connected)
    (hnotify : m.session.notify = some n) (hempty : n.framer.buffer = [])
    (hopen : m.host.phaseOf n.socket = .connected)
    (hsends : ∀ moment, m.host.policy.sends ⟨.notify, moment⟩ = true)
    (haccepts : ∀ moment, m.host.policy.accepts ⟨.notify, moment⟩ = accepted)
    (hfits : ∀ response ∈ (NotifyLink.drain (n.framer.feed stream)).1,
      (response.raw.length : Int) ≤ config.maxResponseSize)
    (c c' : Cutting stream) (depth' : Nat) :
    let out := m.deliver depth' n.socket c.chunks
    let out' := m.deliver depth' n.socket c'.chunks
    let failed := (NotifyLink.drain (n.framer.feed stream)).2.1.IsFailure
    (out.session.phase = out'.session.phase ∧ out.session.selfId = out'.session.selfId ∧
      out.session.directory = out'.session.directory) ∧
    (¬ failed → heardIn (m.newLines out) = heardIn (m.newLines out')) ∧
    (failed → ∃ part all, part <+: all ∧ heardIn (m.newLines out) = part ++ [.disconnected] ∧
      heardIn (m.newLines (m.deliver depth' n.socket (NotifyLink.bytewise stream).chunks)) =
        all ++ [.disconnected]) := by
  intro out out' failed
  have hsound : m.IsSound config := hrun ▸ isSound_run config observed policy o depth past
  have hpolls := hsound.polls hobserved hphase hnotify
  have hwithin : NotifyLink.Fits (n.framer.feed stream) := by
    intro max hmax response hmem
    have hlimit : n.framer.limit = some max := hmax
    rw [(hsound.notify n hnotify).1] at hlimit
    cases hlimit
    exact hfits response hmem
  have hcomes (chunks : List Bytes) :=
    comes_deliver hsends haccepts hpolls hopen depth' chunks
  have hlost (c : Cutting stream) (hfailed : failed) : m.Comes m.session.selfId
      (m.session.directory.notices (NotifyLink.handed n.framer c.chunks).1).1 none
      (m.deliver depth' n.socket c.chunks) := by
    have hend := hcomes c.chunks
    rwa [fate_of_failed (NotifyLink.handed_of_unframed c hwithin hfailed).2] at hend
  by_cases hfailed : failed
  · refine ⟨(hlost c hfailed).agree (hlost c' hfailed), fun hframed ↦ absurd hfailed hframed,
      fun _ ↦ ?_⟩
    have hpart := (NotifyLink.handed_of_unframed c hwithin hfailed).1
    have hbytes := (hlost (NotifyLink.bytewise stream) hfailed).1.heardIn_newLines
    rw [NotifyLink.handed_bytewise hempty hwithin] at hbytes
    exact ⟨_, _, Peer.Directory.notices_prefix _ hpart, (hlost c hfailed).1.heardIn_newLines,
      hbytes⟩
  · have hend := hcomes c.chunks
    have hend' := hcomes c'.chunks
    rw [NotifyLink.handed_of_framed c hwithin hfailed] at hend
    rw [NotifyLink.handed_of_framed c' hwithin hfailed] at hend'
    exact ⟨hend.agree hend', fun _ ↦ hend.heardIn_newLines.trans hend'.heardIn_newLines.symm,
      fun h ↦ absurd h hfailed⟩

/-- A session signs in, and its long poll is connected. -/
def polling : List Step := [
  .call (.connect (some "10.0.0.5") none none),
  .socket (.number 0) .connected,
  .socket (.number 0) (.received (Bytes.ofAscii
    "HTTP/1.1 200 OK\r\nPragma: 7\r\nContent-Length: 0\r\n\r\n")),
  .socket (.number 1) .connected]

/-- A message from a peer. -/
def greeting : Bytes := Bytes.ofAscii "HTTP/1.1 200 OK\r\nPragma: 9\r\nContent-Length: 2\r\n\r\nhi"

/-- A head that announces no body. -/
def headAlone : Bytes := Bytes.ofAscii "HTTP/1.1 200 OK\r\n\r\n"

/-- A message is heard if it comes in a chunk of its own, and is lost if it comes in one chunk with
bytes that cannot be framed. -/
theorem greeting_lost :
    let m := run .silent 0 (fresh (Config.standard "alice") true {}) polling
    heardIn (m.newLines (m.deliver 0 1 [greeting, headAlone])) =
        [.message 9 (Bytes.ofAscii "hi"), .disconnected] ∧
      heardIn (m.newLines (m.deliver 0 1 [greeting ++ headAlone])) = [.disconnected] := by
  decide +kernel

/-- A greeting with a head behind it that cannot be framed is delivered at once and byte by byte: an
initial part of what is heard byte by byte is heard at once. -/
theorem delivery_of_chunks_greeting :
    let m := run .silent 0 (fresh (Config.standard "alice") true {}) polling
    let n : NotifyLink := { socket := 1, framer := { limit := some 1048576 }, waiting := true }
    let stream := greeting ++ headAlone
    (m.observed = true ∧ m.session.phase = .connected ∧ m.session.notify = some n ∧
      m.host.phaseOf 1 = .connected) ∧
    (∀ moment, m.host.policy.sends ⟨.notify, moment⟩ = true ∧
      m.host.policy.accepts ⟨.notify, moment⟩ = true) ∧
    (∀ response ∈ (NotifyLink.drain (n.framer.feed stream)).1,
      (response.raw.length : Int) ≤ (Config.standard "alice").maxResponseSize) ∧
    ∃ part all, part <+: all ∧
      heardIn (m.newLines (m.deliver 0 1 [stream])) = part ++ [.disconnected] ∧
      heardIn (m.newLines (m.deliver 0 1 (NotifyLink.bytewise stream).chunks)) =
        all ++ [.disconnected] := by
  intro m n stream
  have hstart : m.observed = true ∧ m.session.phase = .connected ∧ m.session.notify = some n ∧
      m.host.phaseOf 1 = .connected := by
    decide +kernel
  have hpolicy : m.host.policy = {} := policy_run _ (by decide) 0
  have hgrants : ∀ moment, m.host.policy.sends ⟨.notify, moment⟩ = true ∧
      m.host.policy.accepts ⟨.notify, moment⟩ = true := by
    simp [hpolicy]
  have hread : (∀ response ∈ (NotifyLink.drain (n.framer.feed stream)).1,
      (response.raw.length : Int) ≤ (Config.standard "alice").maxResponseSize) ∧
      (NotifyLink.drain (n.framer.feed stream)).2.1 =
        .failed ⟨.missingLength, headAlone.length⟩ := by
    decide +kernel
  obtain ⟨hobserved, hphase, hnotify, hopen⟩ := hstart
  have hsame := delivery_of_chunks rfl hobserved hphase hnotify rfl hopen
    (fun moment ↦ (hgrants moment).1) (fun moment ↦ (hgrants moment).2) hread.1
    ⟨[stream], by simp, by simp⟩ ⟨[greeting, headAlone], by simp, by simp [stream]⟩ 0
  exact ⟨⟨hobserved, hphase, hnotify, hopen⟩, hgrants, hread.1, hsame.2.2 (hread.2 ▸ trivial)⟩

end Machine

end Rendezvous
