import Rendezvous.Proofs.Session.Logic
import Rendezvous.Proofs.Session.Machine
import Rendezvous.Proofs.Session.Veil.Streams

/-!
# Machines that differ in payloads

Two machines that are the same but for the payloads that came to them: for bytes that the long poll
holds, and for what the log says of messages. Nothing else that a machine does reads any of this, so
each operation leaves two such machines again, and asks the same of both hosts.
-/

namespace Rendezvous

open Wire

/-- Two events that differ at most in the payload of a message. -/
inductive Event.IsLike : Event → Event → Prop where
  | same (e : Event) : IsLike e e
  | message (peer : Int) {payload payload' : Bytes} (size : payload'.length = payload.length) :
      IsLike (.message peer payload) (.message peer payload')

/-- Two lines of a log that differ at most in an event, and in the session as it was then. -/
inductive LogEntry.IsLike : LogEntry Note → LogEntry Note → Prop where
  | same (l : LogEntry Note) : IsLike l l
  | heard {e e' : Event} (like : e.IsLike e') (s s' : Session) :
      IsLike (.note (.heard e s)) (.note (.heard e' s'))

private theorem LogEntry.IsLike.isClosing_eq {l l' : LogEntry Note} (h : l.IsLike l') :
    l'.isClosing = l.isClosing := by
  cases h <;> rfl

/-! ### Hosts -/

/-- Two hosts whose logs tell of the same requests and of like events. -/
inductive Host.Twin (h : Host Note) : Host Note → Prop where
  | intro {log : List (LogEntry Note)} (like : List.Forall₂ LogEntry.IsLike h.log log) :
      Twin h { h with log }

namespace Host

variable {h h' : Host Note}

private theorem Twin.write (ht : h.Twin h') {l l' : LogEntry Note} (hl : l.IsLike l') :
    (h.write l).Twin (h'.write l') := by
  cases ht with
  | intro hlike => exact .intro (.cons hl hlike)

/-- Both hosts are asked for the same. -/
theorem Twin.ask (ht : h.Twin h') (a : Action) : (h.ask a).Twin (h'.ask a) := ht.write (.same _)

/-- Every socket is in the same phase on both hosts. -/
theorem Twin.phaseOf (ht : h.Twin h') (k : Nat) : h'.phaseOf k = h.phaseOf k := by
  cases ht
  rfl

/-- Both hosts grant the same. -/
theorem Twin.policy (ht : h.Twin h') : h'.policy = h.policy := by
  cases ht
  rfl

/-- Both hosts have the same sockets. -/
theorem Twin.sockets (ht : h.Twin h') : h'.sockets = h.sockets := by
  cases ht
  rfl

/-- Both hosts have as many timers. -/
theorem Twin.timers (ht : h.Twin h') : h'.timers = h.timers := by
  cases ht
  rfl

/-- Both hosts set a phase alike. -/
theorem Twin.setPhase (ht : h.Twin h') (k : Nat) (p : Channel.Phase) :
    (h.setPhase k p).Twin (h'.setPhase k p) := by
  cases ht with
  | intro hlike => exact .intro hlike

private theorem Twin.close (ht : h.Twin h') (k : Nat) : (h.close k).Twin (h'.close k) :=
  (ht.setPhase k .closed).ask (.close k)

/-- The logs of both hosts correspond line by line. -/
theorem Twin.lines (ht : h.Twin h') : List.Forall₂ LogEntry.IsLike h.log h'.log := by
  cases ht with
  | intro hlike => exact hlike

/-- What is granted depends on how many lines there are, and not on what they say. -/
theorem Twin.moment_eq (ht : h.Twin h') : h'.moment = h.moment := by
  have hlines := ht.lines
  rw [moment, moment]
  generalize h.log = log, h'.log = log' at hlines ⊢
  induction hlines with
  | nil => rfl
  | cons hl _ ih =>
    have hclosing := hl.isClosing_eq
    simp only [List.countP_cons, ih, hclosing]

/-- Both hosts connect alike. -/
theorem Twin.connect (ht : h.Twin h') (k : Nat) (address : Address) :
    (h'.connect k address).1 = (h.connect k address).1 ∧
      (h.connect k address).2.Twin (h'.connect k address).2 := by
  have hcan : h'.canDial k = h.canDial k := by
    have hmoment := ht.moment_eq
    cases ht
    simp only [canDial, hmoment]
  rw [Host.connect, Host.connect, hcan]
  split
  · exact ⟨rfl, (ht.setPhase k .connecting).ask _⟩
  · exact ⟨rfl, ht⟩

private theorem Twin.send (ht : h.Twin h') (k : Nat) (bytes : Bytes) :
    (h'.send k bytes).1 = (h.send k bytes).1 ∧ (h.send k bytes).2.Twin (h'.send k bytes).2 := by
  have hcan : h'.canSend k = h.canSend k := by
    have hmoment := ht.moment_eq
    cases ht
    simp only [canSend, hmoment]
  rw [Host.send, Host.send, hcan]
  split
  · exact ⟨rfl, ht.ask _⟩
  · exact ⟨rfl, ht⟩

/-- Both hosts set a timer alike. -/
theorem Twin.schedule (ht : h.Twin h') (delay : Float) :
    (h.schedule delay).2.Twin (h'.schedule delay).2 := by
  cases ht with
  | intro hlike => exact .intro (.cons (.same _) hlike)

end Host

/-! ### Links -/

/-- What two uses of a link come to, where the hosts differ at most in their logs. -/
structure UsesAlike {α β : Type} (out out' : α × β × Host Note) : Prop where
  answer : out'.1 = out.1
  link : out'.2.1 = out.2.1
  host : out.2.2.Twin out'.2.2

namespace CommandLink

variable {h h' : Host Note}

/-- Starting an exchange does the same on hosts that are alike. -/
theorem start_alike (l : CommandLink) (what : Exchange) (bytes : Bytes) (address : Address)
    (ht : h.Twin h') :
    UsesAlike (l.start what bytes address h) (l.start what bytes address h') := by
  obtain ⟨hsame, htwin⟩ := ht.connect l.socket address
  simp only [start]
  split
  · exact ⟨rfl, rfl, ht⟩
  · generalize h.connect l.socket address = out at hsame htwin
    generalize h'.connect l.socket address = out' at hsame htwin
    obtain ⟨granted, after⟩ := out
    obtain ⟨granted', after'⟩ := out'
    obtain rfl : granted' = granted := hsame
    cases granted' <;> exact ⟨rfl, rfl, htwin⟩

/-- Flushing does the same on hosts that are alike. -/
theorem flush_alike (l : CommandLink) (ht : h.Twin h') : UsesAlike (l.flush h) (l.flush h') := by
  rw [flush, flush]
  cases l.pending with
  | none => exact ⟨rfl, rfl, ht⟩
  | some bytes =>
    obtain ⟨hsame, htwin⟩ := ht.send l.socket bytes
    simp only
    generalize h.send l.socket bytes = out at hsame htwin
    generalize h'.send l.socket bytes = out' at hsame htwin
    obtain ⟨sent, after⟩ := out
    obtain ⟨sent', after'⟩ := out'
    obtain rfl : sent' = sent := hsame
    cases sent' <;> exact ⟨rfl, rfl, htwin⟩

/-- Receiving does the same on hosts that are alike. -/
theorem receive_alike (l : CommandLink) (bytes : Bytes) (ht : h.Twin h') :
    UsesAlike (l.receive bytes h) (l.receive bytes h') := by
  rw [receive, receive]
  split
  · exact ⟨rfl, rfl, ht⟩
  · exact ⟨rfl, rfl, ht⟩
  · exact ⟨rfl, rfl, ht.close _⟩

end CommandLink

/-- Two notify links that hold bytes of their own, or none. -/
inductive NotifyLink.Twin (held held' : Bytes) : NotifyLink → NotifyLink → Prop where
  | holding (n : NotifyLink) : Twin held held' { n with framer := { n.framer with buffer := held } }
      { n with framer := { n.framer with buffer := held' } }
  | cleared (n : NotifyLink) (empty : n.framer.buffer = []) : Twin held held' n n

namespace NotifyLink

variable {held held' : Bytes} {n n' : NotifyLink} {h h' : Host Note}

/-- Both links are over the same socket. -/
theorem Twin.socket (hn : Twin held held' n n') : n'.socket = n.socket := by
  cases hn <;> rfl

/-- Both links wait, or neither does. -/
theorem Twin.waiting (hn : Twin held held' n n') : n'.waiting = n.waiting := by
  cases hn <;> rfl

private theorem Twin.limit (hn : Twin held held' n n') : n'.framer.limit = n.framer.limit := by
  cases hn <;> rfl

private theorem Twin.await (hn : Twin held held' n n') (waiting : Bool) :
    Twin held held' { n with waiting } { n' with waiting } := by
  cases hn with
  | holding n => exact .holding { n with waiting }
  | cleared n empty => exact .cleared { n with waiting } empty

/-- Both links drop what they hold. -/
theorem Twin.abort (hn : Twin held held' n n') : Twin held held' n.abort n'.abort := by
  have hsame : n'.abort = n.abort := by cases hn <;> rfl
  rw [hsame]
  exact .cleared n.abort rfl

/-- What two uses of twin links come to. -/
structure UsesTwins {α : Type} (held held' : Bytes) (out out' : α × NotifyLink × Host Note) :
    Prop where
  answer : out'.1 = out.1
  link : Twin held held' out.2.1 out'.2.1
  host : out.2.2.Twin out'.2.2

/-- Both links issue a wait alike. -/
theorem issueWait_twins (hn : Twin held held' n n') (ht : h.Twin h') (id : Int) :
    UsesTwins held held' (n.issueWait id h) (n'.issueWait id h') := by
  rw [issueWait, issueWait, hn.socket]
  cases waitBytes id with
  | error e => exact ⟨rfl, hn, ht⟩
  | ok request =>
    obtain ⟨hsame, htwin⟩ := ht.send n.socket request
    have hlink := hn.await (h.send n.socket request).1
    rw [hn.socket] at hlink
    simp only [hsame]
    exact ⟨rfl, hlink, htwin⟩

/-- Both links are rearmed alike. -/
theorem rearm_twins (hn : Twin held held' n n') (ht : h.Twin h') (id : Int) (address : Address) :
    UsesTwins held held' (n.rearm id address h) (n'.rearm id address h') := by
  have hclosed : h'.isClosed n'.socket = h.isClosed n.socket := by
    rw [Host.isClosed, Host.isClosed, hn.socket, ht.phaseOf]
  rw [rearm, rearm, hclosed]
  split
  · obtain ⟨hsame, htwin⟩ := ht.connect n.socket address
    have hlink := hn.await false
    rw [hn.socket] at hlink ⊢
    exact ⟨congrArg Except.ok hsame, hlink, htwin⟩
  · exact issueWait_twins hn ht id

/-- Links that differ in nothing but the bytes that each holds. -/
theorem twin_of_held (hsocket : n'.socket = n.socket) (hwaiting : n'.waiting = n.waiting)
    (hlimit : n'.framer.limit = n.framer.limit) :
    Twin n.framer.buffer n'.framer.buffer n n' := by
  have hother : n' = { n with framer := { n.framer with buffer := n'.framer.buffer } } := by
    obtain ⟨socket', ⟨limit', buffer'⟩, waiting'⟩ := n'
    cases hsocket
    cases hwaiting
    cases hlimit
    rfl
  generalize n'.framer.buffer = other at hother
  rw [hother]
  exact .holding n

/-- The bytes by which two streams go on are read alike. -/
theorem Twin.reads {own : Int} {bytes bytes' : Bytes} (hn : Twin held held' n n')
    (hlike : UpToPayloads own (n.framer.buffer ++ bytes) (n'.framer.buffer ++ bytes')) :
    UpToPayloads.ReadAlike own (n.framer.buffer ++ bytes) (n'.framer.buffer ++ bytes')
      (drain (n.framer.feed bytes)) (drain (n'.framer.feed bytes')) := by
  have hfeed : n'.framer.feed bytes' = ⟨n.framer.limit, n'.framer.buffer ++ bytes'⟩ := by
    rw [Framer.feed, hn.limit]
  rw [hfeed]
  exact hlike.drain n.framer.limit

/-- Each link then holds what is left of its own stream. -/
theorem receive_twins {own : Int} {bytes bytes' : Bytes} (hn : Twin held held' n n')
    (ht : h.Twin h')
    (hlike : UpToPayloads own (n.framer.buffer ++ bytes) (n'.framer.buffer ++ bytes')) :
    Twin (drain (n.framer.feed bytes)).2.2.buffer (drain (n'.framer.feed bytes')).2.2.buffer
        (n.receive bytes h).2.2.1 (n'.receive bytes' h').2.2.1 ∧
      (n.receive bytes h).2.2.2.Twin (n'.receive bytes' h').2.2.2 := by
  have hread := hn.reads hlike
  constructor
  · show Twin (n.receive bytes h).2.2.1.framer.buffer (n'.receive bytes' h').2.2.1.framer.buffer _ _
    apply twin_of_held
    · exact hn.socket
    · show (n'.waiting && _) = (n.waiting && _)
      rw [hn.waiting, isEmpty_eq_of_forall₂ hread.responses]
    · exact hread.limit
  · simp only [receive, hread.outcome]
    split
    · rw [hn.socket]
      exact ht.close _
    · exact ht

end NotifyLink

/-! ### Machines -/

/-- Two machines that differ at most in payloads: in bytes that the long poll holds, and in what the
log says of messages. -/
inductive Machine.Twin (held held' : Bytes) (m : Machine) : Machine → Prop where
  | intro {notify : Option NotifyLink} {host : Host Note}
      (links : Option.Rel (NotifyLink.Twin held held') m.session.notify notify)
      (hosts : m.host.Twin host) :
      Twin held held' m { m with session := { m.session with notify }, host }

namespace Machine

variable {held held' : Bytes} {m m' : Machine}

/-- The notify links of both machines differ in what they hold at most. -/
theorem Twin.notify (hm : Twin held held' m m') :
    Option.Rel (NotifyLink.Twin held held') m.session.notify m'.session.notify := by
  cases hm with
  | intro hlinks hhosts => exact hlinks

/-- Either both have a long poll, or none has. -/
theorem Twin.notify_cases (hm : Twin held held' m m') :
    m.session.notify = none ∧ m'.session.notify = none ∨
      ∃ n n', m.session.notify = some n ∧ m'.session.notify = some n' ∧
        NotifyLink.Twin held held' n n' := by
  have hlinks := hm.notify
  cases hlink : m.session.notify <;> cases hlink' : m'.session.notify <;>
    rw [hlink, hlink'] at hlinks <;> cases hlinks
  · exact .inl ⟨rfl, rfl⟩
  · next htwin => exact .inr ⟨_, _, rfl, rfl, htwin⟩

/-- The hosts of both machines are alike. -/
theorem Twin.host (hm : Twin held held' m m') : m.host.Twin m'.host := by
  cases hm with
  | intro hlinks hhosts => exact hhosts

/-- The sessions of both machines differ in their notify links at most. -/
theorem Twin.session (hm : Twin held held' m m') :
    m'.session = { m.session with notify := m'.session.notify } := by
  cases hm with
  | intro hlinks hhosts => rfl

/-- Both machines have the same settings. -/
theorem Twin.config (hm : Twin held held' m m') : m'.config = m.config := by
  cases hm with
  | intro hlinks hhosts => rfl

/-- Both machines are observed, or neither is. -/
theorem Twin.observed (hm : Twin held held' m m') : m'.observed = m.observed := by
  cases hm with
  | intro hlinks hhosts => rfl

/-- Both machines have the same command link. -/
theorem Twin.command (hm : Twin held held' m m') : m'.session.command = m.session.command := by
  rw [hm.session]

/-- Both machines note events that are alike. -/
theorem Twin.note (hm : Twin held held' m m') {e e' : Event} (he : e.IsLike e') (s s' : Session) :
    Twin held held' (m.note (.heard e s)) (m'.note (.heard e' s')) := by
  cases hm with
  | intro hlinks hhosts => exact .intro hlinks (hhosts.write (.heard he s s'))

/-- Both machines put the same command link back. -/
theorem Twin.putCommand (hm : Twin held held' m m') {after after' : CommandLink × Host Note}
    (hlink : after'.1 = after.1) (hhosts : after.2.Twin after'.2) :
    Twin held held' (m.putCommand after) (m'.putCommand after') := by
  cases hm with
  | intro hlinks _ =>
    rw [putCommand, putCommand, hlink]
    exact .intro hlinks hhosts

/-- The links may hold other bytes than before. -/
theorem Twin.putNotify (hm : Twin held held' m m') {n n' : NotifyLink} {host host' : Host Note}
    {next next' : Bytes} (hlink : NotifyLink.Twin next next' n n') (hhosts : host.Twin host') :
    Twin next next' (m.putNotify (n, host)) (m'.putNotify (n', host')) := by
  cases hm with
  | intro _ _ => exact .intro (.some hlink) hhosts

/-- Both machines come to be granted the same. -/
theorem Twin.grant (hm : Twin held held' m m') (f : Policy → Policy) :
    Twin held held' (m.grant f) (m'.grant f) := by
  cases hm with
  | intro hlinks hhosts =>
    cases hhosts with
    | intro hlike => exact .intro hlinks (.intro hlike)

/-- Both machines find the same socket. -/
theorem Twin.find? (hm : Twin held held' m m') (ref : SocketRef) : m'.find? ref = m.find? ref := by
  have hsockets := hm.host.sockets
  cases ref <;> simp only [Machine.find?, hsockets]

private theorem Twin.cancelRetry (hm : Twin held held' m m') :
    Twin held held' m.cancelRetry m'.cancelRetry := by
  cases hm with
  | intro hlinks hhosts =>
    simp only [Machine.cancelRetry]
    cases m.session.retry.live with
    | none => exact .intro hlinks hhosts
    | some timer => exact .intro hlinks (hhosts.ask _)

private theorem Twin.cancelLookup (hm : Twin held held' m m') :
    Twin held held' m.cancelLookup m'.cancelLookup := by
  cases hm with
  | intro hlinks hhosts =>
    simp only [Machine.cancelLookup]
    cases m.session.resolver.inFlight with
    | false => exact .intro hlinks hhosts
    | true => exact .intro hlinks (hhosts.ask _)

private theorem Twin.closeCommand (hm : Twin held held' m m') :
    Twin held held' m.closeCommand m'.closeCommand := by
  rw [Machine.closeCommand, Machine.closeCommand, hm.command]
  cases m.session.command with
  | none => exact hm
  | some c =>
    have hclosed := hm.host.close c.socket
    show Twin held held' (m.putCommand (c.abort.2, m.host.close c.socket))
      (m'.putCommand (c.abort.2, m'.host.close c.socket))
    exact hm.putCommand rfl hclosed

private theorem Twin.closeNotify (hm : Twin held held' m m') :
    Twin held held' m.closeNotify m'.closeNotify := by
  rw [Machine.closeNotify, Machine.closeNotify]
  rcases hm.notify_cases with ⟨hnone, hnone'⟩ | ⟨n, n', hsome, hsome', hlink⟩
  · rw [hnone, hnone']
    exact hm
  · rw [hsome, hsome']
    refine hm.putNotify hlink.abort ?_
    rw [hlink.socket]
    exact hm.host.close _

/-- Both machines keep quiet. -/
theorem Twin.quiet (hm : Twin held held' m m') : Twin held held' m.quiet m'.quiet :=
  hm.cancelRetry.cancelLookup.closeNotify

/-- Nothing but the logs is left to differ in. -/
theorem Twin.reset (hm : Twin held held' m m') : Twin held held' m.reset m'.reset := by
  have hdown := hm.cancelRetry.cancelLookup.closeCommand.closeNotify
  rw [Machine.reset, Machine.reset]
  generalize m.cancelRetry.cancelLookup.closeCommand.closeNotify = a at hdown
  generalize m'.cancelRetry.cancelLookup.closeCommand.closeNotify = a' at hdown
  cases hdown with
  | intro hlinks hhosts => exact .intro .none hhosts

/-- Fresh links hold nothing. -/
theorem Twin.openLinks (hm : Twin held held' m m') : Twin held held' m.openLinks m'.openLinks := by
  have hdown := hm.closeCommand.closeNotify
  rw [Machine.openLinks, Machine.openLinks]
  generalize m.closeCommand.closeNotify = a at hdown
  generalize m'.closeCommand.closeNotify = a' at hdown
  cases hdown with
  | intro hlinks hhosts =>
    cases hhosts with
    | intro hlike => exact .intro (.some (.cleared _ rfl)) (.intro hlike)

end Machine

end Rendezvous
