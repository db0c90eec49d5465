import Rendezvous.Journal
import Rendezvous.Proofs.Peer.Listing
import Rendezvous.Proofs.Session.Episode.Reports
import Rendezvous.Proofs.Session.Sound

/-!
# The directory by the events alone

An observer that only listens can keep a copy of the directory: it stores the peers that are
reported, drops those that leave, and empties the copy when the session ends. However often peers
are listed, renamed or gone, the copy is the directory after every step, and already when signing in
is reported to be complete. Only closing, which is told to nobody, would leave the copy behind.
-/

namespace Rendezvous

/-- The copy of the directory by the events of a log. -/
def copyOf (log : List (LogEntry Note)) : Peer.Roster := (Journal.afterAll {} (heardIn log)).peers

/-- Whether the copy was the directory each time that signing in was reported to be complete. -/
def IsFaithful : List (LogEntry Note) → Prop
  | [] => True
  | .note (.heard .signedIn s) :: earlier => copyOf earlier = s.directory.peers ∧ IsFaithful earlier
  | _ :: earlier => IsFaithful earlier

private theorem copyOf_append_actions (asked : List Action) (log : List (LogEntry Note)) :
    copyOf (asked.map .action ++ log) = copyOf log := by
  rw [copyOf, heardIn_append, heardIn_actions, List.append_nil, copyOf]

private theorem copyOf_cons_heard (e : Event) (s : Session) (log : List (LogEntry Note)) :
    copyOf (.note (.heard e s) :: log) =
      ((Journal.afterAll {} (heardIn log)).after e).peers := by
  have hone : heardIn (.note (.heard e s) :: log) = heardIn log ++ [e] := by
    simp [heardIn]
  rw [copyOf, hone, Journal.afterAll, List.foldl_append]
  rfl

private theorem isFaithful_append_actions (asked : List Action) (log : List (LogEntry Note)) :
    IsFaithful (asked.map .action ++ log) ↔ IsFaithful log := by
  induction asked with
  | nil => rfl
  | cons a rest ih => exact ih

private theorem IsFaithful.heard {log : List (LogEntry Note)} (h : IsFaithful log) {e : Event}
    {s : Session} (hsigned : e = .signedIn → copyOf log = s.directory.peers) :
    IsFaithful (.note (.heard e s) :: log) := by
  cases e with
  | signedIn => exact ⟨hsigned rfl, h⟩
  | _ => exact h

private theorem IsFaithful.of_append {later earlier : List (LogEntry Note)} {s : Session}
    (h : IsFaithful (later ++ .note (.heard .signedIn s) :: earlier)) :
    copyOf earlier = s.directory.peers := by
  induction later with
  | nil => exact h.1
  | cons line rest ih =>
    cases line with
    | action a => exact ih h
    | note n =>
      cases n with
      | called c answer => exact ih h
      | heard e s' =>
        cases e with
        | signedIn => exact ih h.2
        | _ => exact ih h

namespace Machine

/-- The copy is the directory, and was whenever signing in was complete. -/
structure IsCopied (m : Machine) : Prop where
  observed : m.observed = true
  faithful : IsFaithful m.host.log
  copied : copyOf m.host.log = m.session.directory.peers

variable {config : Config} {m m' : Machine} {depth : Nat}

private theorem isCopied_fresh (config : Config) (policy : Policy) :
    (fresh config true policy).IsCopied := ⟨rfl, trivial, rfl⟩

/-- What is not reported leaves the directory as it is. -/
theorem IsCopied.of_asks (h : m.IsCopied) (hasks : m.host.Asks m'.host)
    (hobserved : m'.observed = m.observed)
    (hpeers : m'.session.directory.peers = m.session.directory.peers) : m'.IsCopied := by
  obtain ⟨asked, hasked⟩ := hasks
  constructor
  · exact hobserved.trans h.observed
  · rw [hasked]
    exact (isFaithful_append_actions asked _).2 h.faithful
  · rw [hasked, copyOf_append_actions, hpeers, h.copied]

/-- What is reported puts the copy where the directory already is. -/
theorem isCopied_tell (hobserved : m.observed = true) (hfaithful : IsFaithful m.host.log)
    {e : Event} (hsigned : e = .signedIn → copyOf m.host.log = m.session.directory.peers)
    (hpeers : ((Journal.afterAll {} (heardIn m.host.log)).after e).peers =
      m.session.directory.peers) :
    (SessionM.after (Observer.silent.tell depth e) m).IsCopied := by
  have hnoted : (m.note (.heard e m.session)).IsCopied :=
    ⟨hobserved, hfaithful.heard hsigned, (copyOf_cons_heard e m.session m.host.log).trans hpeers⟩
  apply SessionM.ensures_const.1
  exact SessionM.ensures_tell (SessionM.listens_silent depth) hobserved hnoted

/-- An event that tells nothing of the directory. -/
theorem IsCopied.tell (h : m.IsCopied) {e : Event}
    (hsigned : e = .signedIn → copyOf m.host.log = m.session.directory.peers)
    (hpeers : ∀ j : Journal, (j.after e).peers = j.peers) :
    (SessionM.after (Observer.silent.tell depth e) m).IsCopied :=
  isCopied_tell h.observed h.faithful hsigned ((hpeers _).trans h.copied)

/-- The end of a session empties the copy. -/
theorem IsCopied.fail (h : m.IsCopied) :
    (SessionM.after (Observer.silent.tell depth .disconnected) m.reset).IsCopied := by
  obtain ⟨asked, hasked⟩ := m.asks_reset
  apply isCopied_tell (m.observed_reset.trans h.observed) _ Event.noConfusion
  · rw [session_reset]
    rfl
  · rw [hasked]
    exact (isFaithful_append_actions asked _).2 h.faithful

/-- Where the server was not reached, there is nothing in the copy. -/
theorem IsCopied.giveUp (h : m.IsCopied) (hempty : m.session.directory = .empty) :
    (SessionM.after (Observer.silent.tell depth .connectionFailure) m.reset).IsCopied := by
  apply IsCopied.tell _ Event.noConfusion fun _ ↦ rfl
  apply h.of_asks m.asks_reset m.observed_reset
  rw [session_reset, hempty]

/-- The copy has the listing when signing in is complete. -/
theorem isCopied_announce (hobserved : m.observed = true) (hfaithful : IsFaithful m.host.log)
    (hphase : m.session.phase = .connected) {listed : List Peer.Entry}
    (hlisted : (copyOf m.host.log).store listed = m.session.directory.peers) :
    (SessionM.after (SessionM.announce (Observer.silent.tell depth) listed) m).IsCopied := by
  apply SessionM.ensures_const.1
  induction listed generalizing m with
  | nil =>
    simp only [SessionM.announce, SessionM.ensures_bind, SessionM.ensures_phase,
      SessionM.ensures_ite, SessionM.ensures_pure]
    refine ⟨fun _ ↦ SessionM.ensures_const.2 ?_, fun hnot ↦ absurd hphase hnot⟩
    exact isCopied_tell hobserved hfaithful (fun _ ↦ hlisted) hlisted
  | cons entry rest ih =>
    simp only [SessionM.announce, SessionM.ensures_bind, SessionM.ensures_phase,
      SessionM.ensures_ite, SessionM.ensures_pure]
    refine ⟨fun _ ↦ ?_, fun hnot ↦ absurd hphase hnot⟩
    apply SessionM.ensures_tell (SessionM.listens_silent depth) hobserved
    apply ih
    · exact hobserved
    · exact hfaithful.heard Event.noConfusion
    · exact hphase
    · have hstored : copyOf (.note (.heard (.peerConnected entry.id entry.name) m.session) ::
          m.host.log) = (copyOf m.host.log).insert entry.id entry.name := copyOf_cons_heard _ _ _
      exact (congrArg (Peer.Roster.store · rest) hstored).trans hlisted

/-- Dialling over fresh links is no news of the peers. -/
private theorem IsCopied.dial (h : m.IsCopied) (c : CommandLink) (request : Bytes) :
    (m.openLinks.putCommand (c.start .signIn request m.openLinks.session.address
      m.openLinks.host).2).IsCopied := by
  refine h.of_asks (m.asks_openLinks.trans (CommandLink.asks_start _ _ request _ _))
    m.observed_openLinks ?_
  exact congrArg (·.directory.peers) m.session_openLinks

/-- Whatever becomes of a session whose observer only listens, the copy is the directory again. -/
theorem IsCopied.change {late : Int → Prop} (hsound : m.IsSound config) (h : m.IsCopied)
    (hchange : m.Change late (Observer.silent.tell depth) m') : m'.IsCopied := by
  cases hchange with
  | fail => exact h.fail
  | giveUp early => exact h.giveUp (hsound.session.early early).2
  | refuse => exact h.tell Event.noConfusion fun _ ↦ rfl
  | name => exact h.of_asks (.refl _) rfl rfl
  | lookUp => exact h.of_asks (Host.asks_ask _ _) rfl rfl
  | resolve => exact h.of_asks (.refl _) rfl rfl
  | dial early request => exact (h.dial _ request).of_asks (.refl _) rfl rfl
  | dialRefused early request =>
    apply (h.dial _ request).giveUp
    exact (congrArg Session.directory m.session_openLinks).trans (hsound.session.early early).2
  | dialUnwritten =>
    exact h.of_asks m.asks_openLinks m.observed_openLinks
      (congrArg (·.directory.peers) m.session_openLinks)
  | relay => exact h.of_asks (CommandLink.asks_start _ _ _ _ _) rfl rfl
  | quiet => exact h.of_asks m.asks_quiet m.observed_quiet (by rw [session_quiet])
  | pend => exact h.of_asks (.refl _) rfl rfl
  | leave => exact h.of_asks (.refl _) rfl rfl
  | signOut => exact h.of_asks (CommandLink.asks_start _ _ _ _ _) rfl rfl
  | flush => exact h.of_asks (CommandLink.asks_flush _ _) rfl rfl
  | receive => exact h.of_asks (CommandLink.asks_receive _ _ _) rfl rfl
  | abort => exact h.of_asks (.refl _) rfl rfl
  | @signIn phase idle id writable assigned entries n notify =>
    obtain ⟨asked, hasked⟩ := m.host.asks_connect n.socket m.session.address
    have hempty : copyOf m.host.log = ∅ := by
      rw [h.copied, (hsound.session.early (.inr (.inr phase))).2]
      rfl
    refine isCopied_announce ?_ ?_ ?_ ?_
    · exact h.observed
    · exact hasked ▸ (isFaithful_append_actions asked _).2 h.faithful
    · rfl
    · show (copyOf (m.host.connect n.socket m.session.address).2.log).store _ = _
      rw [hasked, copyOf_append_actions, hempty]
      exact (Peer.Directory.peers_addAll
        { (m.session.assign id).directory with peers := ∅ } entries).symm
  | sent => exact h.tell Event.noConfusion fun _ ↦ rfl
  | adopt => exact h.of_asks (CommandLink.asks_receive _ _ _) rfl rfl
  | @enter phase id other name =>
    refine isCopied_tell ?_ ?_ Event.noConfusion ?_
    · exact h.observed
    · exact h.faithful
    · rw [Peer.Directory.add_of_ne other]
      exact congrArg (fun peers : Peer.Roster ↦ peers.insert id name) h.copied
  | depart phase id =>
    refine isCopied_tell ?_ ?_ Event.noConfusion ?_
    · exact h.observed
    · exact h.faithful
    · exact congrArg (fun peers : Peer.Roster ↦ peers.erase id) h.copied
  | message => exact h.tell Event.noConfusion fun _ ↦ rfl
  | issueWait => exact h.of_asks (NotifyLink.asks_issueWait _ _ _) rfl rfl
  | rearm => exact h.of_asks (NotifyLink.asks_rearm _ _ _ _) rfl rfl
  | receiveNotify => exact h.of_asks (NotifyLink.asks_receive _ _ _) rfl rfl
  | abortNotify => exact h.of_asks (.refl _) rfl rfl
  | arm => exact h.of_asks (Host.asks_schedule _ _) rfl rfl
  | fire => exact h.of_asks (.refl _) rfl rfl
  | lookedUp => exact h.of_asks (.refl _) rfl rfl
  | socket => exact h.of_asks (.refl _) rfl rfl
  | observe => exact h.of_asks (.refl _) h.observed.symm rfl
  | grant => exact h.of_asks (.refl _) rfl rfl

private theorem IsCopied.step (hsound : m.IsSound config) (h : m.IsCopied) (depth : Nat) {s : Step}
    (hs : s ≠ .call .close) : (m.step .silent depth s).2.IsCopied := by
  have hkept : IsKept (fun _ ↦ True) (IsSound config) := isKept_isSound config
  have htell := hkept.tell .silent depth
  have hboth (after : Machine)
      (hbecomes : m.Becomes (fun _ ↦ True) (Observer.silent.tell depth) after) :
      after.IsSound config ∧ after.IsCopied := by
    refine hbecomes.induction (P := fun m ↦ m.IsSound config ∧ m.IsCopied) ⟨hsound, h⟩ ?_
    intro m m' hm hchange
    exact ⟨hm.1.change htell hchange, hm.2.change hm.1 hchange⟩
  rw [Machine.step, SessionM.runWith_snd]
  apply SessionM.ensures_const.1
  exact (SessionM.becomes_step m _ hs fun _ _ ↦ trivial).mono
    (fun _ after hafter ↦ (hboth after hafter).2) fun after hafter ↦ (hboth after hafter).2

private theorem IsCopied.run (hsound : m.IsSound config) (h : m.IsCopied) (depth : Nat)
    {steps : List Step} (hsteps : .call .close ∉ steps) : (m.run .silent depth steps).IsCopied := by
  induction steps generalizing m with
  | nil => exact h
  | cons s rest ih =>
    rw [List.mem_cons, not_or] at hsteps
    exact ih ((isKept_isSound config).step .silent depth hsound s)
      (h.step hsound depth (Ne.symm hsteps.1)) hsteps.2

/-- The copy that an observer makes of the directory is the directory after every run in which the
session is not closed by its owner, and was whenever signing in was reported to be complete. In
every run, whoever observes, the directory goes by the session's own id and does not hold it. -/
theorem copyOf_eq_peers (config : Config) (observed : Bool) (policy : Policy) (o : Observer)
    (depth : Nat) (steps : List Step) :
    (.call .close ∉ steps →
      let m := run .silent depth (fresh config true policy) steps
      copyOf m.host.log = m.session.directory.peers ∧
      ∀ later s earlier, m.host.log = later ++ .note (.heard .signedIn s) :: earlier →
        copyOf earlier = s.directory.peers) ∧
    let m := run o depth (fresh config observed policy) steps
    m.session.directory.selfId = m.session.selfId ∧
      m.session.selfId ∉ m.session.directory.peers := by
  constructor
  · intro hsteps m
    have hcopied : m.IsCopied :=
      (isCopied_fresh config policy).run (isSound_fresh config true policy) depth hsteps
    refine ⟨hcopied.copied, fun later s earlier hlog ↦ ?_⟩
    exact (hlog ▸ hcopied.faithful).of_append
  · intro m
    have hsound : m.IsSound config := isSound_run config observed policy o depth steps
    exact ⟨hsound.session.own, hsound.session.absent⟩

/-- A session signs in, is listed one peer twice and itself among the peers, hears that this peer is
renamed and that another one joins and hangs up, and loses the long poll. -/
def listedTwice : List Step := [
  .call (.connect (some "10.0.0.5") none none),
  .socket (.newest .command) .connected,
  .socket (.newest .command) (.received (Bytes.ofAscii
    "HTTP/1.1 200 OK\r\nPragma: 7\r\nContent-Length: 20\r\n\r\na,9,1\nme,7,1\nb,9,1\n\n")),
  .socket (.newest .notify) .connected,
  .socket (.newest .notify) (.received (Bytes.ofAscii
    "HTTP/1.1 200 OK\r\nPragma: 7\r\nContent-Length: 5\r\n\r\nc,9,1")),
  .socket (.newest .notify) (.received (Bytes.ofAscii
    "HTTP/1.1 200 OK\r\nPragma: 7\r\nContent-Length: 5\r\n\r\nd,8,1")),
  .socket (.newest .notify) (.received (Bytes.ofAscii
    "HTTP/1.1 200 OK\r\nPragma: 8\r\nContent-Length: 3\r\n\r\nBYE")),
  .socket (.newest .notify) (.closed 104)]

/-- The copy that is kept of what was heard is the directory of the session. -/
theorem copyOf_eq_peers_listedTwice :
    .call .close ∉ listedTwice ∧
    let m := run .silent 0 (fresh (Config.standard "alice") true {}) listedTwice
    m.session.directory.peers.toList = [(9, "c")] ∧
      copyOf m.host.log = m.session.directory.peers ∧
      ∀ later s earlier, m.host.log = later ++ .note (.heard .signedIn s) :: earlier →
        copyOf earlier = s.directory.peers := by
  have hopen : .call .close ∉ listedTwice := by decide +kernel
  have hcopied := (copyOf_eq_peers (Config.standard "alice") true {} .silent 0 listedTwice).1 hopen
  exact ⟨hopen, by decide +kernel, hcopied.1, hcopied.2⟩

end Machine

end Rendezvous
