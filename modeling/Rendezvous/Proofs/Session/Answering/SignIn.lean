import Rendezvous.Proofs.Peer.Listing
import Rendezvous.Proofs.Session.Answering.Delivery
import Rendezvous.Proofs.Wire.Written

/-!
# Signing in, end to end

The server grants a request to sign in with an id and a listing. However its answer is cut, the
session is connected under this id in the end, knows everybody in the listing but itself by the last
name that stands there, has told its observer of each of them in the order of the listing, and has
closed the connection of the request and dialled for the long poll.
-/

namespace Rendezvous

open Wire

/-- One socket is closed and then another is dialled. -/
theorem Host.connect_of_close {ν : Type} {h : Host ν} {k j : Nat}
    (hdial : (h.close k).canDial j = true) (hne : j ≠ k) (address : Address) :
    ((h.close k).connect j address).2.log =
        [.action (.connect j address), .action (.close k)] ++ h.log ∧
      ((h.close k).connect j address).2.phaseOf k = .closed ∧
      ((h.close k).connect j address).2.phaseOf j = .connecting := by
  rcases (h.close k).connect_cases j address with ⟨hdialled, -, hmade⟩ | hrefused
  · rw [hdialled, phaseOf_connecting hmade, phaseOf_connecting hmade, if_neg hne, if_pos rfl,
      phaseOf_close, if_pos rfl]
    exact ⟨rfl, rfl, rfl⟩
  · rw [connect, if_pos hdial] at hrefused
    cases hrefused

namespace Machine

/-- The machine after events are told to an observer that only listens. -/
def hear (m : Machine) (events : List Event) : Machine :=
  { m with host := { m.host with
      log := (events.map fun e ↦ .note (.heard e m.session)).reverse ++ m.host.log } }

variable {m : Machine} {events : List Event}

private theorem hear_note (e : Event) (events : List Event) :
    (m.note (.heard e m.session)).hear events = m.hear (e :: events) := by
  simp [hear, note, Host.write]

private theorem heardIn_notes (events : List Event) (s : Session) :
    heardIn (events.map fun e ↦ .note (.heard e s)).reverse = events := by
  induction events with
  | nil => rfl
  | cons e rest ih =>
    rw [List.map_cons, List.reverse_cons, heardIn_append, ih]
    rfl

private theorem actions_notes (events : List Event) (s : Session) :
    Host.actions (events.map fun e ↦ .note (Note.heard e s)).reverse = [] := by
  simp [Host.actions]

/-- The machine that is connected under an id, with a listing taken over and the long poll
dialled. -/
def welcomed (m : Machine) (n : NotifyLink) (id : Int) (entries : List Peer.Entry) : Machine :=
  putNotify
    { m with session := {
        m.session.assign id with
        directory := ((m.session.assign id).directory.rebuild entries).2
        phase := .connected } }
    (n, (m.host.connect n.socket m.session.address).2)

end Machine

namespace SessionM

open Machine

variable {tell : Event → SessionM Unit} {m : Machine} {E : Machine → Prop}

private theorem hears_announce (htell : Listens tell) (hobserved : m.observed = true)
    (hphase : m.session.phase = .connected) (listed : List Peer.Entry) :
    Ensures (announce tell listed) m (fun _ after ↦ after = m.hear (announced listed)) E := by
  induction listed generalizing m with
  | nil =>
    simp only [announce, ensures_bind, ensures_phase, ensures_ite, ensures_pure]
    exact ⟨fun _ ↦ ensures_tell htell hobserved rfl, fun hnot ↦ absurd hphase hnot⟩
  | cons entry rest ih =>
    simp only [announce, ensures_bind, ensures_phase, ensures_ite, ensures_pure]
    refine ⟨fun _ ↦ ensures_tell htell hobserved ?_, fun hnot ↦ absurd hphase hnot⟩
    rw [announced, List.map_cons, List.cons_append, ← hear_note]
    exact ih hobserved hphase

/-- A granted request to sign in connects the session and dials the long poll, and then its
observer hears of the listing. -/
theorem hears_acceptSignIn (htell : Listens tell) (hobserved : m.observed = true)
    {response : Response} {id : Int} {n : NotifyLink} (hok : response.isOk = true)
    (hid : response.peerId? = some id) (hassigned : 0 ≤ id) (hn : m.session.notify = some n)
    (hdial : m.host.canDial n.socket = true) :
    Ensures (acceptSignIn tell response) m (fun _ after ↦
      after = (m.welcomed n id (Peer.readListing response.body)).hear (announced
        ((m.session.assign id).directory.rebuild (Peer.readListing response.body)).1)) E := by
  have hdialled : (m.host.connect n.socket m.session.address).1 = true := by
    rw [Host.connect, if_pos hdial]
  rw [acceptSignIn, ensures_ite]
  refine ⟨fun hrefused ↦ by simp [hok] at hrefused, fun _ ↦ ?_⟩
  simp only [hid, ensures_ite, ensures_bind, ensures_get, ensures_remember]
  refine ⟨fun hnegative ↦ absurd hassigned (Int.not_le.2 hnegative), fun _ ↦ ?_⟩
  refine (ensures_withNotify_of_eq (by exact hn)).2 ⟨fun _ ↦ ?_, fun hnot ↦ absurd hdialled hnot⟩
  apply hears_announce htell
  · exact hobserved
  · rfl

end SessionM

namespace Machine

open SessionM

variable {m : Machine}

/-- The answer that grants a request to sign in comes to the session. -/
theorem answered_signIn {c : CommandLink} {n : NotifyLink} {f : Framer} {reply : Written}
    {rest : Bytes} {id : Int} (hobserved : m.observed = true)
    (hphase : m.session.phase = .signingIn)
    (hn : m.session.notify = some n) (hdial : (m.host.close c.socket).canDial n.socket = true)
    (hnext : f.next? = .ok (some (reply.response, rest))) (hok : reply.status = 200)
    (hid : reply.peerId? = some id) (hassigned : 0 ≤ id) (depth : Nat) :
    ∃ idle : CommandLink, idle.socket = c.socket ∧ m.answered depth c f =
      ((m.putCommand (idle, m.host.close c.socket)).welcomed n id
        (Peer.readListing reply.body)).hear (announced
          ((m.session.assign id).directory.rebuild (Peer.readListing reply.body)).1) := by
  refine ⟨{ c with framer := f.reset, exchange := none }, rfl, ?_⟩
  rw [answered_of_some hnext, ← Written.body_response reply]
  apply after_eq
  rw [SessionM.react, ensures_bind, ensures_phase]
  have hphase' : (m.putCommand ({ c with framer := f.reset, exchange := none },
      m.host.close c.socket)).session.phase = .signingIn := hphase
  simp only [hphase']
  apply hears_acceptSignIn (listens_silent depth)
  · exact hobserved
  · rw [reply.isOk_response, hok]
    rfl
  · rw [reply.peerId?_response, hid]
  · exact hassigned
  · exact hn
  · exact hdial

/-- What is reported of a listing, by its lines. -/
theorem announced_rebuild (d : Peer.Directory) (lines : List Peer.Listed) :
    announced (d.rebuild (lines.map Peer.Listed.entry)).1 =
      (lines.filter (·.id ≠ d.selfId)).map (fun l ↦ .peerConnected l.id l.name) ++ [.signedIn] := by
  rw [announced, Peer.Directory.rebuild, Peer.Directory.fst_addAll, List.filter_map, List.map_map]
  rfl

/-- Who is known of a listing, by its lines. -/
theorem getElem?_rebuild_entry (d : Peer.Directory) (lines : List Peer.Listed) (peer : Int) :
    (d.rebuild (lines.map Peer.Listed.entry)).2.peers[peer]? =
      if peer = d.selfId then none else (lines.findRev? (·.id = peer)).map (·.name) := by
  rw [Peer.Directory.getElem?_rebuild, List.findRev?_eq_find?_reverse,
    List.findRev?_eq_find?_reverse, ← List.map_reverse, List.find?_map, Option.map_map]
  rfl

/-- A session has asked to sign in, nothing has been answered, and the socket of its long poll can
be dialled. However the answer is cut that grants the request with an id and a listing, the session
is connected under the id, knows each listed peer but itself by its last name, has reported the
peers in the order of the listing and then that it is signed in, and has asked its host for nothing
but to close the connection and to dial the server for the long poll. -/
theorem signs_in {config : Config} {observed : Bool} {policy : Policy} {o : Observer}
    {depth : Nat} {past : List Step} {c : CommandLink} {n : NotifyLink} {reply : Written}
    {lines : List Peer.Listed} {id : Int}
    (hrun : run o depth (fresh config observed policy) past = m)
    (hobserved : m.observed = true) (hphase : m.session.phase = .signingIn)
    (hcommand : m.session.command = some c) (hempty : c.framer.buffer = [])
    (hopen : m.host.phaseOf c.socket = .connected) (hnotify : m.session.notify = some n)
    (hdial : (m.host.close c.socket).canDial n.socket = true) (hgranted : reply.status = 200)
    (hid : reply.peerId? = some id) (hassigned : 0 ≤ id)
    (hlisting : reply.body = Peer.Listed.encode lines)
    (hsize : (reply.encode.length : Int) ≤ config.maxResponseSize)
    (cut : Cutting reply.encode) (depth' : Nat) :
    let out := m.deliver depth' c.socket cut.chunks
    (out.session.phase = .connected ∧ out.session.selfId = id ∧
      out.session.directory.selfId = id) ∧
    (∀ peer, out.session.directory.peers[peer]? =
      if peer = id then none else (lines.findRev? (·.id = peer)).map (·.name)) ∧
    heardIn (m.newLines out) =
      (lines.filter (·.id ≠ id)).map (fun l ↦ .peerConnected l.id l.name) ++ [.signedIn] ∧
    Host.actions (m.newLines out) = [.close c.socket, .connect n.socket m.session.address] ∧
    out.host.phaseOf c.socket = .closed ∧ out.host.phaseOf n.socket = .connecting := by
  intro out
  have hcapped : m.IsCapped config := hrun ▸ isCapped_run config observed policy o depth past
  have hsound : m.IsSound config := hrun ▸ isSound_run config observed policy o depth past
  have hfound (limit : Option Int) :
      (⟨limit, reply.encode⟩ : Framer).next? = .ok (some (reply.response, [])) := by
    have hnext := reply.next?_encode limit []
    rwa [List.append_nil] at hnext
  have hfits (response : Response) (rest : Bytes)
      (hnext : (({} : Framer).feed reply.encode).next? = .ok (some (response, rest))) :
      (response.raw.length : Int) ≤ config.maxResponseSize := by
    cases (hfound none).symm.trans hnext
    rwa [reply.raw_response]
  have hnext : (c.framer.feed reply.encode).next? = .ok (some (reply.response, [])) := by
    rw [Framer.feed, hempty]
    exact hfound _
  obtain ⟨idle, -, hout⟩ := answered_signIn hobserved hphase hnotify hdial hnext hgranted hid
    hassigned depth'
  rw [hlisting, Peer.Listed.readListing_encode, announced_rebuild] at hout
  have hend : out = _ := (hcapped.deliver hcommand hempty hopen hfits cut depth').trans hout
  have hne : n.socket ≠ c.socket := by
    intro hsame
    have hrole := hsound.command c.socket (hcommand ▸ rfl)
    rw [← hsame, (hsound.notify n hnotify).2] at hrole
    cases hrole
  obtain ⟨hlog, hclosed, hconnecting⟩ := Host.connect_of_close hdial hne m.session.address
  have hnew : m.newLines out = _ := newLines_of_append (by
    rw [hend, hear]
    show _ ++ ((m.host.close c.socket).connect n.socket m.session.address).2.log = _
    rw [hlog, ← List.append_assoc])
  rw [hnew, heardIn_append, heardIn_notes, Host.actions_append, actions_notes, hend]
  exact ⟨⟨rfl, rfl, Peer.Directory.selfId_rebuild _ _⟩, getElem?_rebuild_entry _ _, rfl, rfl,
    hclosed, hconnecting⟩

/-- A listing that has one peer twice, under two names, and the session itself in between. -/
def renamedListing : List Peer.Listed :=
  have hsmall (id : Int) (h : id.natAbs < Nat.pow 10 1) : Numeral.IsWritable id :=
    Numeral.isWritable_of_lt h (by decide)
  [ { name := "bob", id := 9, flag := "1", name_ne := by decide, name_clean := by simp
      id_writable := hsmall 9 (by decide), flag_line := by decide },
    { name := "alice", id := 7, flag := "1", name_ne := by decide, name_clean := by simp
      id_writable := hsmall 7 (by decide), flag_line := by decide },
    { name := "Bob the 2nd", id := 9, flag := "", name_ne := by decide, name_clean := by simp
      id_writable := hsmall 9 (by decide), flag_line := by decide } ]

/-- The answer that assigns the id 7 with this listing. -/
def renamedReply : Written where
  statusLine := grantedLine
  fields := [.pragma 7, .contentLength 33]
  body := Peer.Listed.encode renamedListing
  unbroken := cr_notMem_grantedLine
  announced := by decide +kernel

/-- Cut in two, the answer reports both names of the peer, and the last one is kept. -/
theorem signs_in_renamed :
    let m := run .silent 0 (fresh (Config.standard "alice") true {}) askedToSignIn
    let c : CommandLink :=
      { socket := 0, framer := { limit := some 1048576 }, exchange := some .signIn }
    let n : NotifyLink := { socket := 1, framer := { limit := some 1048576 } }
    let out := m.deliver 0 0 [renamedReply.encode.take 50, renamedReply.encode.drop 50]
    (m.observed = true ∧ m.session.phase = .signingIn ∧ m.session.command = some c ∧
      m.host.phaseOf 0 = .connected ∧ m.session.notify = some n ∧
      (m.host.close 0).canDial 1 = true) ∧
    (renamedReply.status = 200 ∧ renamedReply.peerId? = some 7 ∧
      (renamedReply.encode.length : Int) ≤ (Config.standard "alice").maxResponseSize) ∧
    out.session.phase = .connected ∧ out.session.selfId = 7 ∧
    out.session.directory.peers[(9 : Int)]? = some "Bob the 2nd" ∧
    heardIn (m.newLines out) =
      [.peerConnected 9 "bob", .peerConnected 9 "Bob the 2nd", .signedIn] := by
  intro m c n out
  have hstart : m.observed = true ∧ m.session.phase = .signingIn ∧ m.session.command = some c ∧
      m.host.phaseOf 0 = .connected ∧ m.session.notify = some n ∧
      (m.host.close 0).canDial 1 = true := by
    decide +kernel
  have hreply : renamedReply.status = 200 ∧ renamedReply.peerId? = some 7 ∧
      (renamedReply.encode.length : Int) ≤ (Config.standard "alice").maxResponseSize := by
    decide +kernel
  obtain ⟨hobserved, hphase, hcommand, hopen, hnotify, hdial⟩ := hstart
  obtain ⟨hgranted, hid, hsize⟩ := hreply
  obtain ⟨⟨hconnected, hself, -⟩, hpeers, hheard, -⟩ := signs_in rfl hobserved hphase hcommand rfl
    hopen hnotify hdial hgranted hid (by decide) rfl hsize
    ⟨[renamedReply.encode.take 50, renamedReply.encode.drop 50], by simp, by simp⟩ 0
  have hlast : (renamedListing.findRev? (·.id = 9)).map (·.name) = some "Bob the 2nd" := by
    decide +kernel
  refine ⟨⟨hobserved, hphase, hcommand, hopen, hnotify, hdial⟩, ⟨hgranted, hid, hsize⟩, hconnected,
    hself, ?_, ?_⟩
  · exact (hpeers 9).trans hlast
  · exact hheard.trans (by decide +kernel)

end Machine

end Rendezvous
