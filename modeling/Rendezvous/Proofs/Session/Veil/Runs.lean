import Rendezvous.Journal
import Rendezvous.Proofs.Session.Polling.Runs
import Rendezvous.Proofs.Session.Veil.Steps

/-!
# Payloads make no difference

Two runs in which the same happens, but for payloads from other peers that come over the long poll,
cannot be told apart: not by what the session remembers, not by what it asks of its host, and not by
what is written down of it, unless at the lowest severity.
-/

namespace Rendezvous

open Wire SessionM Machine

/-! ### Runs that differ in payloads -/

/-- Two steps of sessions that differ at most in payloads, after the streams that their long polls
are in. The same happens in both, but for bytes that go on with these streams, and for bytes over
sockets that the sessions are done with. -/
inductive Step.IsLike (m : Machine) (stream stream' : Bytes) : Step → Step → Prop where
  | same (s : Step) (apart : s.polled? m = none) : IsLike m stream stream' s s
  | polled {ref : SocketRef} (heard : (m.find? ref).bind m.hearer = some .notify)
      {bytes bytes' : Bytes}
      (payloads : UpToPayloads m.session.selfId (stream ++ bytes) (stream' ++ bytes')) :
      IsLike m stream stream' (.socket ref (.received bytes)) (.socket ref (.received bytes'))
  | unheard {ref : SocketRef} (unheard : (m.find? ref).bind m.hearer = none)
      (bytes bytes' : Bytes) :
      IsLike m stream stream' (.socket ref (.received bytes)) (.socket ref (.received bytes'))

/-- The stream that the long poll is in after a step which brought bytes to it, or none. Where the
long poll is left with nothing, another stream begins. -/
def Machine.stream (after : Machine) (earlier : Bytes) (brought : Option Bytes) : Bytes :=
  if after.held = [] then [] else earlier ++ brought.getD []

/-- Steps of a run, from a machine on and with the stream that its long poll is in, and other steps
with another stream, where the two runs differ at most in payloads from other peers. -/
inductive Machine.Veils (o : Observer) (depth : Nat) :
    Machine → Bytes → Bytes → List Step → List Step → Prop where
  | nil (m : Machine) (stream stream' : Bytes) : Veils o depth m stream stream' [] []
  | cons {m : Machine} {stream stream' : Bytes} {s s' : Step} {rest rest' : List Step}
      (like : s.IsLike m stream stream' s')
      (later : Veils o depth (m.step o depth s).2
        ((m.step o depth s).2.stream stream (s.polled? m))
        ((m.step o depth s).2.stream stream' (s'.polled? m)) rest rest') :
      Veils o depth m stream stream' (s :: rest) (s' :: rest')

/-! ### What is written down -/

namespace Journal

variable {e e' : Event} {threshold : Nat}

/-- Only the record of the lowest severity tells more of a payload than its size. -/
theorem shown_records?_alike (he : e.IsLike e') (hlevel : Severity.info.rank ≤ threshold)
    (j : Journal) : shown threshold ((j.records? e').getD []) =
      shown threshold ((j.records? e).getD []) := by
  cases he with
  | same => rfl
  | @message peer payload payload' size =>
    have hdebug : ¬ threshold ≤ Severity.debug.rank := by
      have hrank : Severity.debug.rank < Severity.info.rank := by decide
      omega
    simp only [records?, size]
    cases Numeral.integerText? peer with
    | none => rfl
    | some id => simp [shown, List.filter_cons, hdebug]

/-- The same is shown of events that differ at most in payloads. -/
theorem shown_recordsOf_alike {events events' : List Event}
    (h : List.Forall₂ Event.IsLike events events') (hlevel : Severity.info.rank ≤ threshold)
    (j : Journal) :
    shown threshold (j.recordsOf events') = shown threshold (j.recordsOf events) := by
  induction h generalizing j with
  | nil => rfl
  | @cons e e' rest rest' he _ ih =>
    have hafter : j.after e' = j.after e := by cases he <;> rfl
    have hfirst := shown_records?_alike he hlevel j
    have hrest := ih (j.after e)
    unfold shown at hfirst hrest ⊢
    rw [recordsOf, recordsOf, hafter, List.filter_append, List.filter_append, hfirst, hrest]

/-- At the lowest severity payloads are told apart. -/
example :
    let shownOf (text : String) := shown Severity.debug.rank
      (recordsOf {} [.message 9 (Bytes.ofAscii text)])
    shownOf "hi" ≠ shownOf "ho" := by
  decide +kernel

end Journal

namespace Machine

/-- What can be seen of a session and its host: all that the session remembers, but for the bytes
that its long poll holds; what it asked for; and what is written down of it, unless at the lowest
severity. -/
structure LooksLike (m m' : Machine) : Prop where
  session : m'.session = { m.session with notify := m'.session.notify }
  waiting : m'.session.notify.map NotifyLink.waiting = m.session.notify.map NotifyLink.waiting
  sockets : m'.host.sockets = m.host.sockets
  asked : Host.actions m'.host.log = Host.actions m.host.log
  records (threshold : Nat) : Severity.info.rank ≤ threshold →
    Journal.shown threshold (Journal.recordsOf {} (Observer.heard m')) =
      Journal.shown threshold (Journal.recordsOf {} (Observer.heard m))

variable {held held' stream stream' : Bytes} {m m' : Machine} {depth : Nat} {s s' : Step}

private theorem Twin.actions (hm : Twin held held' m m') :
    Host.actions m'.host.log = Host.actions m.host.log := by
  have hsame : List.Forall₂ Eq (Host.actions m.host.log) (Host.actions m'.host.log) := by
    refine List.rel_filterMap ?_ (List.forall₂_reverse_iff.2 hm.host.lines)
    intro l l' hl
    cases hl with
    | same =>
      cases l with
      | action a => exact .some rfl
      | note n => exact .none
    | heard => exact .none
  rw [List.forall₂_eq_eq_eq] at hsame
  exact hsame.symm

private theorem Twin.heard (hm : Twin held held' m m') :
    List.Forall₂ Event.IsLike (Observer.heard m) (Observer.heard m') := by
  have hnotes : List.Forall₂ (fun n n' ↦ LogEntry.IsLike (.note n) (.note n'))
      (Host.notes m.host.log) (Host.notes m'.host.log) := by
    refine List.rel_filterMap ?_ (List.forall₂_reverse_iff.2 hm.host.lines)
    intro l l' hl
    cases hl with
    | same =>
      cases l with
      | action a => exact .none
      | note n => exact .some (.same _)
    | heard he s s' => exact .some (.heard he s s')
  refine List.rel_filterMap ?_ hnotes
  intro n n' hn
  cases hn with
  | same =>
    cases n with
    | called c answer => exact .none
    | heard e s => exact .some (.same e)
  | heard he => exact .some he

private theorem Twin.looksLike (hm : Twin held held' m m') : m.LooksLike m' where
  session := hm.session
  waiting := by
    rcases hm.notify_cases with ⟨hnone, hnone'⟩ | ⟨n, n', hsome, hsome', hlink⟩
    · rw [hnone, hnone']
    · rw [hsome, hsome', Option.map_some, Option.map_some, hlink.waiting]
  sockets := hm.host.sockets
  asked := hm.actions
  records threshold hlevel := Journal.shown_recordsOf_alike hm.heard hlevel {}

/-! ### Runs -/

/-- Two machines that differ at most in payloads, with the streams that their long polls are in:
what is held of these goes on alike if the streams do. -/
structure Veiled (stream stream' : Bytes) (m m' : Machine) : Prop where
  twin : Twin m.held m'.held m m'
  length : m'.held.length = m.held.length
  onward (own : Int) (more more' : Bytes) : UpToPayloads own (stream ++ more) (stream' ++ more') →
    UpToPayloads own (m.held ++ more) (m'.held ++ more')

/-- Twin machines hold what they are said to hold, unless they hold nothing. -/
theorem Twin.held_eq (hm : Twin held held' m m') :
    m.held = held ∧ m'.held = held' ∨ m.held = [] ∧ m'.held = [] := by
  rcases hm.notify_cases with ⟨hnone, hnone'⟩ | ⟨n, n', hsome, hsome', hlink⟩
  · right
    simp only [Machine.held, hnone, hnone', Option.map_none, Option.getD_none, and_self]
  · rw [held_of_eq hsome, held_of_eq hsome']
    cases hlink with
    | holding n => exact .inl ⟨rfl, rfl⟩
    | cleared n empty => exact .inr ⟨empty, empty⟩

private theorem Twin.reheld (hm : Twin held held' m m') : Twin m.held m'.held m m' := by
  cases hm with
  | @intro notify host hlinks hhosts =>
    refine .intro ?_ hhosts
    show Option.Rel (NotifyLink.Twin _ ((notify.map (·.framer.buffer)).getD [])) _ _
    rw [Machine.held]
    generalize m.session.notify = link at hlinks
    cases hlinks with
    | none => exact .none
    | some hlink =>
      cases hlink with
      | holding => exact .some (.holding _)
      | cleared _ empty => exact .some (.cleared _ empty)

/-- What is left of either stream is what the long polls then hold, or nothing is. -/
theorem Twin.veiled (hm : Twin held held' m m') (hlength : held'.length = held.length)
    {brought brought' : Option Bytes}
    (honward : held = [] ∨ ∀ own more more',
      UpToPayloads own (stream ++ brought.getD [] ++ more) (stream' ++ brought'.getD [] ++ more') →
        UpToPayloads own (held ++ more) (held' ++ more')) :
    Veiled (m.stream stream brought) (m.stream stream' brought') m m' := by
  have hsame : m'.held.length = m.held.length := by
    rcases hm.held_eq with ⟨h, h'⟩ | ⟨h, h'⟩ <;> rw [h, h']
    exact hlength
  refine ⟨hm.reheld, hsame, fun own more more' hmore ↦ ?_⟩
  by_cases hempty : m.held = []
  · have hempty' : m'.held = [] := by
      rw [← List.length_eq_zero_iff, hsame, hempty, List.length_nil]
    rw [Machine.stream, if_pos hempty, Machine.stream, if_pos hempty] at hmore
    rw [hempty, hempty']
    exact hmore
  · rw [Machine.stream, if_neg hempty, Machine.stream, if_neg hempty] at hmore
    obtain ⟨hheld, hheld'⟩ := hm.held_eq.resolve_right fun h ↦ hempty h.1
    rw [hheld, hheld']
    exact honward.resolve_left (fun h ↦ hempty (hheld.trans h)) own more more' hmore

private theorem keeps_silent (depth : Nat) (id : Int) :
    Keeps (GoesBy id) (Observer.silent.tell depth) := by
  intro e m h
  rw [after, tell_silent]
  show GoesBy id (if m.observed then m.note (.heard e m.session) else m)
  split <;> exact h

/-- Where two steps come to the same, they reply so, and what is left of either stream is held. -/
theorem veiled_of_matches {next next' : Bytes} (hafter : Matches next next'
      (Machine.react (Observer.silent.tell depth) s m)
      (Machine.react (Observer.silent.tell depth) s' m'))
    (hlength : next'.length = next.length) {brought brought' : Option Bytes}
    (honward : next = [] ∨ ∀ own more more',
      UpToPayloads own (stream ++ brought.getD [] ++ more) (stream' ++ brought'.getD [] ++ more') →
        UpToPayloads own (next ++ more) (next' ++ more')) :
    (m'.step .silent depth s').1 = (m.step .silent depth s).1 ∧
      Veiled ((m.step .silent depth s).2.stream stream brought)
        ((m.step .silent depth s).2.stream stream' brought')
        (m.step .silent depth s).2 (m'.step .silent depth s').2 :=
  ⟨hafter.runWith.1, hafter.runWith.2.veiled hlength honward⟩

/-- What one step preserves, with what it replies. -/
theorem Veiled.step (h : Veiled stream stream' m m') (hs : s.IsLike m stream stream' s')
    (depth : Nat) :
    (m'.step .silent depth s').1 = (m.step .silent depth s).1 ∧
      Veiled ((m.step .silent depth s).2.stream stream (s.polled? m))
        ((m.step .silent depth s).2.stream stream' (s'.polled? m))
        (m.step .silent depth s).2 (m'.step .silent depth s').2 := by
  have htell : ∀ held held', TellsBlindly held held' (Observer.silent.tell depth) :=
    fun _ _ ↦ tellsBlindly_silent depth
  have hkept (own : Int) (more more' : Bytes)
      (hmore : UpToPayloads own (stream ++ (none : Option Bytes).getD [] ++ more)
        (stream' ++ (none : Option Bytes).getD [] ++ more')) :
      UpToPayloads own (m.held ++ more) (m'.held ++ more') := by
    rw [Option.getD_none, List.append_nil, List.append_nil] at hmore
    exact h.onward own more more' hmore
  cases hs with
  | same s apart =>
    rw [apart]
    exact veiled_of_matches (agree_react (htell _ _) apart h.twin) h.length (.inr hkept)
  | @unheard ref unheard bytes bytes' =>
    have hnone (bytes : Bytes) : (Step.socket ref (.received bytes)).polled? m = none := by
      rw [Step.polled?, unheard]
      rfl
    rw [hnone bytes, hnone bytes']
    refine veiled_of_matches (agree_react_of_unheard unheard bytes bytes' h.twin) h.length ?_
    exact .inr hkept
  | @polled ref heard bytes bytes' payloads =>
    have hsome (bytes : Bytes) : (Step.socket ref (.received bytes)).polled? m = some bytes :=
      if_pos heard
    have hheld := h.onward m.session.selfId bytes bytes' payloads
    obtain ⟨out, out', hread, hafter⟩ :=
      matches_react_of_polled htell (keeps_silent depth _) h.twin heard hheld
    rw [hsome bytes, hsome bytes']
    refine veiled_of_matches hafter hread.length ?_
    refine hread.onward.imp_right fun honward own more more' hmore ↦ honward own more more' ?_
    rw [Option.getD_some, Option.getD_some, List.append_assoc, List.append_assoc] at hmore
    rw [List.append_assoc, List.append_assoc]
    exact h.onward own _ _ hmore

/-- What a whole run preserves, and each of its steps replies. -/
theorem Veiled.run (h : Veiled stream stream' m m') {steps steps' : List Step}
    (hsteps : Veils .silent depth m stream stream' steps steps') (n : Nat) :
    (∃ now now', Veiled now now' (m.run .silent depth (steps.take n))
      (m'.run .silent depth (steps'.take n))) ∧
    ∀ s ∈ steps[n]?, ∀ s' ∈ steps'[n]?,
      ((m'.run .silent depth (steps'.take n)).step .silent depth s').1 =
        ((m.run .silent depth (steps.take n)).step .silent depth s).1 := by
  induction hsteps generalizing m' n with
  | nil m stream stream' => simpa [run] using ⟨stream, stream', h⟩
  | @cons m stream stream' s s' rest rest' like later ih =>
    have hstep := h.step like depth
    cases n with
    | zero =>
      refine ⟨⟨stream, stream', h⟩, fun t ht t' ht' ↦ ?_⟩
      cases ht
      cases ht'
      exact hstep.1
    | succ n => exact ih hstep.2 n

private theorem veiled_fresh (config : Config) (observed : Bool) (policy : Policy) :
    Veiled [] [] (fresh config observed policy) (fresh config observed policy) :=
  ⟨.intro .none (.intro .nil), rfl, fun _ _ _ ↦ id⟩

/-- A session is blind to payloads. If the same happens in two runs, but for payloads from other
peers that come over the long poll, then after every step what the sessions remember and what they
asked for is the same, the step has the same reply, and the same is written down at the severity of
information and above. Two payloads may be any bytes of one size by which a peer does not hang up,
and may be cut anywhere, but at the same places. -/
theorem looksLike_run (config : Config) (observed : Bool) (policy : Policy) (depth : Nat)
    {steps steps' : List Step}
    (hsteps : Veils .silent depth (fresh config observed policy) [] [] steps steps') (n : Nat) :
    let first := fresh config observed policy
    (first.run .silent depth (steps.take n)).LooksLike
        (first.run .silent depth (steps'.take n)) ∧
      ∀ s ∈ steps[n]?, ∀ s' ∈ steps'[n]?,
        ((first.run .silent depth (steps'.take n)).step .silent depth s').1 =
          ((first.run .silent depth (steps.take n)).step .silent depth s).1 := by
  intro first
  obtain ⟨⟨now, now', hafter⟩, hreplies⟩ := (veiled_fresh config observed policy).run hsteps n
  exact ⟨hafter.twin.looksLike, hreplies⟩

/-- The head of a message from a peer. -/
def noticeHead : Bytes := Bytes.ofAscii "HTTP/1.1 200 OK\r\nPragma: 9\r\nContent-Length: 10"

/-- A session polls, and a message from a peer comes in two chunks. -/
def noticed (front back : String) : List Step := polling ++ [
  .socket (.number 1) (.received (noticeHead ++ headEnd ++ Bytes.ofAscii front)),
  .socket (.number 1) (.received (Bytes.ofAscii back))]

/-- A payload that looks like the end of a head and an entry of the directory may stand for any
other. -/
theorem looksLike_run_noticed :
    let first := fresh (Config.standard "alice") true {}
    let steps := noticed "x\r\n\r" "\nd,9,1"
    let steps' := noticed "0123" "456789"
    Veils .silent 0 first [] [] steps steps' ∧
      (first.run .silent 0 (steps.take 6)).LooksLike (first.run .silent 0 (steps'.take 6)) := by
  intro first steps steps'
  have hwhole : cutHead (noticeHead ++ headEnd) = some (noticeHead, []) := by decide +kernel
  have hannounced : bodyLength (Response.readHead noticeHead).2 = .ok 10 := by decide +kernel
  have hpeer (body : Bytes) : (Response.ofParts noticeHead body).peerId? ≠ some 7 := by
    have hsame : (Response.ofParts noticeHead []).peerId? = some 9 := by decide +kernel
    exact fun h ↦ absurd (hsame.symm.trans h) (by decide)
  have hpart : UpToPayloads 7 (noticeHead ++ headEnd ++ Bytes.ofAscii "x\r\n\r")
      (noticeHead ++ headEnd ++ Bytes.ofAscii "0123") :=
    .part hwhole hannounced (by decide) (by decide) (hpeer _)
  have hall : UpToPayloads 7 (noticeHead ++ headEnd ++ Bytes.ofAscii "x\r\n\r\nd,9,1" ++ [])
      (noticeHead ++ headEnd ++ Bytes.ofAscii "0123456789" ++ []) :=
    .response hwhole hannounced (by decide) (.inr ⟨hpeer _, by decide, by decide⟩) (.same [])
  have hsteps : Veils .silent 0 first [] [] steps steps' := by
    iterate 4 refine .cons (.same _ (by decide +kernel)) ?_
    refine .cons (.polled (by decide +kernel) ?_) (.cons (.polled (by decide +kernel) ?_) ?_)
    · convert hpart using 1 <;> decide +kernel
    · convert hall using 1 <;> decide +kernel
    · exact .nil _ _ _
  exact ⟨hsteps, (looksLike_run _ _ _ _ hsteps 6).1⟩

end Machine

end Rendezvous
