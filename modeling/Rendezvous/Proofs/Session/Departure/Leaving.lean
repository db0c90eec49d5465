import Rendezvous.Proofs.Session.Consistency.Runs
import Rendezvous.Proofs.Session.Episode.Runs

/-!
# What leaving asks for and reports

What a session asks of its host and tells its observer once it was asked to sign out, taken apart
by what happens to it: the exchange that was in flight goes on, or it is over and an exchange to
sign out begins, or the session ends.
-/

namespace Rendezvous

/-- What a log, newest line first, asks for, in order; what is only given up is left out. -/
def workIn (log : List (LogEntry Note)) : List Action :=
  (Host.actions log).filter fun a => !a.isRelease

/-- What a log tells, in order; that a call for a connection was refused is left out. -/
def newsIn (log : List (LogEntry Note)) : List Event :=
  (heardIn log).filter fun e => e ≠ .connectionFailure

variable (later earlier : List (LogEntry Note))

private theorem workIn_append : workIn (later ++ earlier) = workIn earlier ++ workIn later := by
  simp [workIn, Host.actions]

private theorem newsIn_append : newsIn (later ++ earlier) = newsIn earlier ++ newsIn later := by
  simp [newsIn, heardIn_append]

/-- What is told of an exchange that ends while the session is being left: that a relay was
delivered, or nothing. -/
def Exchange.Tells (what : Option Exchange) (sent : List Event) : Prop :=
  sent = [] ∨ sent = [.messageSent 0] ∧ what = some .relay

/-- Whether an event of the command socket is the end of the exchange in flight: the connection is
closed, or a complete response is there. -/
def CommandLink.IsEnd (c : CommandLink) : Channel.Event → Prop
  | .connected => False
  | .received bytes => ∃ response, (c.framer.feed bytes).poll.1 = .ok (some response)
  | .closed _ => True

namespace Machine

/-- Just this is asked for and told, in this order. -/
structure Brings (before : Machine) (work : List Action) (news : List Event)
    (after : Machine) : Prop where
  observed : after.observed = before.observed
  log : ∃ new, after.host.log = new ++ before.host.log ∧ workIn new = work ∧ newsIn new = news

variable {m m' m'' : Machine} {work work' : List Action} {news news' : List Event}

/-- Where nothing happens nothing is brought. -/
theorem Brings.refl (m : Machine) : m.Brings [] [] m := ⟨rfl, [], rfl, rfl, rfl⟩

/-- What is brought one after another is brought together. -/
theorem Brings.trans (h : m.Brings work news m') (h' : m'.Brings work' news' m'') :
    m.Brings (work ++ work') (news ++ news') m'' := by
  obtain ⟨hobserved, new, hlog, rfl, rfl⟩ := h
  obtain ⟨hobserved', new', hlog', rfl, rfl⟩ := h'
  refine ⟨hobserved'.trans hobserved, new' ++ new, ?_, workIn_append _ _, newsIn_append _ _⟩
  rw [hlog', hlog, List.append_assoc]

/-- What follows on something that brings nothing. -/
theorem Brings.after (h' : m'.Brings work news m'') (h : m.Brings [] [] m') :
    m.Brings work news m'' := h.trans h'

/-- Where the log stays nothing is brought. -/
theorem brings_of_eq (hobserved : m'.observed = m.observed) (hlog : m'.host.log = m.host.log) :
    m.Brings [] [] m' := ⟨hobserved, [], hlog, rfl, rfl⟩

private theorem brings_heard (m : Machine) {e : Event} (he : e ≠ .connectionFailure) (s : Session) :
    m.Brings [] [e] (m.note (.heard e s)) :=
  ⟨rfl, [.note (.heard e s)], rfl, rfl, by simp [newsIn, heardIn, Host.notes, he]⟩

/-- The report of a refused call is no news of the session. -/
theorem brings_refusal (m : Machine) (s : Session) :
    m.Brings [] [] (m.note (.heard .connectionFailure s)) :=
  ⟨rfl, [.note (.heard .connectionFailure s)], rfl, rfl, rfl⟩

/-- What a step brings stands in the lines that it adds. -/
theorem Brings.newLines (h : m.Brings work news m') :
    workIn (m.newLines m') = work ∧ newsIn (m.newLines m') = news := by
  obtain ⟨-, new, hlog, rfl, rfl⟩ := h
  simp [Machine.newLines, hlog]

/-! ### Giving up -/

private theorem brings_cancelRetry (m : Machine) : m.Brings [] [] m.cancelRetry := by
  rw [cancelRetry]
  split
  · exact .refl m
  · exact ⟨rfl, [_], rfl, rfl, rfl⟩

private theorem brings_cancelLookup (m : Machine) : m.Brings [] [] m.cancelLookup := by
  rw [cancelLookup]
  split
  · exact ⟨rfl, [_], rfl, rfl, rfl⟩
  · exact .refl m

private theorem brings_closeCommand (m : Machine) : m.Brings [] [] m.closeCommand := by
  rw [closeCommand]
  split
  · exact .refl m
  · exact ⟨rfl, [_], rfl, rfl, rfl⟩

private theorem brings_closeNotify (m : Machine) : m.Brings [] [] m.closeNotify := by
  rw [closeNotify]
  split
  · exact .refl m
  · exact ⟨rfl, [_], rfl, rfl, rfl⟩

/-- Keeping quiet is neither work nor news. -/
theorem brings_quiet (m : Machine) : m.Brings [] [] m.quiet :=
  m.brings_cancelRetry.trans <| (brings_cancelLookup _).trans (brings_closeNotify _)

private theorem brings_reset (m : Machine) : m.Brings [] [] m.reset :=
  m.brings_cancelRetry.trans <| (brings_cancelLookup _).trans <|
    (brings_closeCommand _).trans <| (brings_closeNotify _).trans (brings_of_eq rfl rfl)

/-! ### Ends -/

/-- The session ends, after it told of some events. -/
structure Finishes (m : Machine) (sent : List Event) (after : Machine) : Prop where
  brings : m.Brings [] (sent ++ [.disconnected]) after
  phase : after.session.phase = .disconnected

/-- An exchange to sign out under the id that is held begins on a command link, after the session
told of some events. -/
structure Begins (m : Machine) (c : CommandLink) (sent : List Event) (after : Machine) : Prop where
  brings : m.Brings [.connect c.socket m.session.address] sent after
  phase : after.session.phase = .signingOut
  link : ∃ request,
    (Wire.Request.signOut after.session.selfId >>= Wire.Request.encode) = .ok request ∧
    after.session.command = some { c with
      framer := c.framer.reset
      pending := some request
      exchange := some .signOut }

/-- The session ends, or an exchange to sign out begins. -/
def Leaves (m : Machine) (c : CommandLink) (sent : List Event) (after : Machine) : Prop :=
  m.Finishes sent after ∨ m.Begins c sent after

/-- What comes after something that brings no work. -/
theorem Leaves.after {c : CommandLink} {sent sent' : List Event} {last : Machine}
    (h : m'.Leaves c sent' last)
    (hbefore : m.Brings [] sent m') (haddress : m'.session.address = m.session.address) :
    m.Leaves c (sent ++ sent') last := by
  rcases h with ⟨hend, hphase⟩ | ⟨hbegin, hphase, hlink⟩
  · left
    refine ⟨?_, hphase⟩
    rw [List.append_assoc]
    exact hbefore.trans hend
  · right
    rw [haddress] at hbegin
    exact ⟨hbefore.trans hbegin, hphase, hlink⟩

/-- The exchange in flight goes on, and its request is written if it was not written before. -/
structure GoesOn (m : Machine) (c : CommandLink) (work : List Action) (after : Machine) :
    Prop where
  brings : m.Brings work [] after
  link : ∃ c', after.session = { m.session with command := some c' } ∧ c'.socket = c.socket ∧
    c'.exchange = c.exchange ∧ (work = [] ∧ c'.pending = c.pending ∨
      work = c.pending.toList.map (.send c.socket) ∧ c'.pending = none)

end Machine

namespace SessionM

open Machine

variable {tell : Event → SessionM Unit} {m : Machine} {c : CommandLink} {α : Type}
  {E : Machine → Prop}

/-- A failure, after something that brings nothing, is the end. -/
theorem finishes_fail (htell : Listens tell) (hobserved : m.observed = true) {m' : Machine}
    (hbefore : m.Brings [] [] m') : Ensures (fail tell) m' (fun _ ↦ m.Finishes []) E := by
  rw [fail, ensures_bind, ensures_modify]
  apply ensures_tell htell
  · exact m'.observed_reset.trans (hbefore.observed.trans hobserved)
  · have hreset := hbefore.trans m'.brings_reset
    exact ⟨hreset.trans (brings_heard _ (by decide) _), m'.isReset_reset.phase⟩

private theorem Ensures.leaves {x : SessionM α} {m' : Machine} {sent sent' : List Event}
    (h : Ensures x m' (fun _ ↦ m'.Leaves c sent') fun _ ↦ False)
    (hbefore : m.Brings [] sent m') (haddress : m'.session.address = m.session.address) :
    Ensures x m' (fun _ ↦ m.Leaves c (sent ++ sent')) fun _ ↦ False :=
  h.mono (fun _ _ hleaves ↦ hleaves.after hbefore haddress) fun _ ↦ id

/-- An exchange over an idle link begins with dialling, or not at all. -/
theorem brings_startExchange (hc : m.session.command = some c) (hidle : c.exchange = none)
    (what : Exchange) (request : Bytes) :
    Ensures (startExchange what request) m (fun sent after ↦
      (sent = true → m.Brings [.connect c.socket m.session.address] [] after ∧
        after.session = { m.session with command := some { c with
          framer := c.framer.reset
          pending := some request
          exchange := some what } }) ∧
      (sent = false → m.Brings [] [] after)) E := by
  have hnotBusy : ¬ c.isBusy = true := by simp [CommandLink.isBusy, hidle]
  rw [ensures_startExchange_of_eq hc, CommandLink.start, if_neg hnotBusy]
  rcases m.host.connect_cases c.socket m.session.address with ⟨hdialled, -⟩ | hrefused
  · simp only [hdialled]
    exact ⟨fun _ ↦ ⟨⟨rfl, [_], rfl, rfl, rfl⟩, rfl⟩, by simp⟩
  · simp only [hrefused]
    exact ⟨by simp, fun _ ↦ brings_of_eq rfl rfl⟩

/-- A session with an idle command link ends or begins to sign out. -/
theorem leaves_signOut (htell : Listens tell) (hobserved : m.observed = true)
    (hc : m.session.command = some c) (hidle : c.exchange = none)
    (hon : m.session.phase ≠ .disconnected ∧ m.session.phase ≠ .signingOut)
    (hwritable : Numeral.IsWritable m.session.selfId) :
    Ensures (signOut tell) m (fun _ ↦ m.Leaves c []) fun _ ↦ False := by
  have hnotBusy : ¬ c.isBusy = true := by simp [CommandLink.isBusy, hidle]
  have hsession := m.session_quiet
  have hlink : m.quiet.session.command = some c := by rw [hsession]; exact hc
  have hquiet : m.Brings [] [] m.quiet := m.brings_quiet
  have hleaving : m.quiet.Brings [] [] (m.quiet.setPhase .signingOut) := brings_of_eq rfl rfl
  simp only [signOut, ensures_bind, ensures_phase, ensures_ite, ensures_pure, ensures_modify,
    ensures_get, ensures_enter, ensures_ofRequest, quiet_eq, Bool.or_eq_true, decide_eq_true_eq,
    not_or, hlink, Option.any_some]
  refine ⟨fun hout ↦ ?_, fun _ ↦ ⟨fun hbusy ↦ ?_, fun _ ↦ ⟨fun _ ↦ ?_, fun hset ↦ ⟨?_, ?_⟩⟩⟩⟩
  · exact hout.elim (absurd · hon.1) (absurd · hon.2)
  · exact absurd hbusy hnotBusy
  · exact (finishes_fail htell hobserved hquiet).mono (fun _ _ ↦ .inl) fun _ ↦ id
  · intro request hrequest
    have hleft : (m.quiet.setPhase .signingOut).session.command = some c := hlink
    have haddress : m.quiet.session.address = m.session.address := by rw [hsession]
    apply (brings_startExchange hleft hidle .signOut request).mono _ fun _ ↦ id
    intro sent after hafter
    constructor
    · intro hsent
      obtain ⟨hbrings, hstarted⟩ := hafter.1 hsent
      refine .inr ⟨?_, by rw [hstarted]; rfl, request, by rw [hstarted]; exact hrequest, ?_⟩
      · have hall := hquiet.trans (hleaving.trans hbrings)
        rwa [← haddress]
      · rw [hstarted]
    · intro hrefused
      have hall := hquiet.trans (hleaving.trans (hafter.2 (by simpa using hrefused)))
      exact (finishes_fail htell hobserved hall).mono (fun _ _ ↦ .inl) fun _ ↦ id
  · intro e he
    obtain ⟨bytes, hbytes⟩ := Wire.Request.exists_encode_signOut hwritable
    rw [hsession, hbytes] at he
    cases he

/-- The request to sign out follows the answer that it waited for, unless the session ends. -/
theorem leaves_acceptDeferred (htell : Listens tell) (hobserved : m.observed = true)
    (hc : m.session.command = some c) (hidle : c.exchange = none)
    (hphase : m.session.phase = .signingOutPending)
    (hwritable : Numeral.IsWritable m.session.selfId) (what : Option Exchange)
    (response : Wire.Response) :
    Ensures (acceptDeferred tell what response) m
      (fun _ after ↦ ∃ sent, Exchange.Tells what sent ∧ m.Leaves c sent after) fun _ ↦ False := by
  have hrest (m' : Machine) (hobserved' : m'.observed = true)
      (hc' : m'.session.command = some c) (hphase' : m'.session.phase = .signingOutPending)
      (hwritable' : Numeral.IsWritable m'.session.selfId) :
      Ensures (do
        if (← phase) = .signingOutPending then
          discard (signOut tell)) m' (fun _ ↦ m'.Leaves c []) fun _ ↦ False := by
    simp only [ensures_bind, ensures_phase, ensures_ite, ensures_discard, ensures_pure]
    constructor
    · intro _
      apply leaves_signOut htell hobserved' hc' hidle _ hwritable'
      rw [hphase']
      decide
    · intro hleft
      exact absurd hphase' hleft
  have hplain := hrest m hobserved hc hphase hwritable
  have hsilent {x : SessionM Unit} (hx : Ensures x m (fun _ ↦ m.Leaves c []) fun _ ↦ False) :
      Ensures x m (fun _ after ↦ ∃ sent, Exchange.Tells what sent ∧ m.Leaves c sent after)
        fun _ ↦ False :=
    hx.mono (fun _ _ hleaves ↦ ⟨[], .inl rfl, hleaves⟩) fun _ ↦ id
  rw [acceptDeferred, ensures_ite]
  have hfail : Ensures (fail tell) m (fun _ ↦ m.Leaves c []) fun _ ↦ False :=
    (finishes_fail htell hobserved (.refl m)).mono (fun _ _ ↦ .inl) fun _ ↦ id
  refine ⟨fun _ ↦ hsilent hfail, fun _ ↦ ?_⟩
  rcases what with _ | _ | _ | _
  · exact hsilent hplain
  · cases hid : response.peerId? with
    | none => exact hsilent hplain
    | some assigned =>
      apply hsilent
      rw [ensures_bind, ensures_remember]
      have hassigned := hrest { m with session := m.session.assign assigned } hobserved hc hphase
        (Wire.Response.isWritable_of_peerId? hid)
      have hbrings : m.Brings [] [] { m with session := m.session.assign assigned } :=
        brings_of_eq rfl rfl
      exact hassigned.leaves hbrings rfl
  · rw [ensures_bind]
    apply ensures_tell htell hobserved
    have htold := hrest (m.note (.heard (.messageSent 0) m.session)) hobserved hc hphase hwritable
    apply (htold.leaves (m.brings_heard (by decide) _) rfl).mono
    · exact fun _ _ hleaves ↦ ⟨_, .inr ⟨rfl, rfl⟩, hleaves⟩
    · exact fun _ ↦ id
  · exact hsilent hplain

/-! ### Events of the command socket -/

private theorem goesOn_writeRequest (htell : Listens tell) (hobserved : m.observed = true)
    (hc : m.session.command = some c) :
    Ensures (writeRequest tell) m
      (fun _ after ↦ m.Finishes [] after ∨ ∃ work, m.GoesOn c work after) fun _ ↦ False := by
  rw [writeRequest, ensures_bind, ensures_withCommand_of_eq hc, CommandLink.flush]
  cases hpending : c.pending with
  | none =>
    apply ensures_pure.2
    exact .inr ⟨[], brings_of_eq rfl rfl, c, rfl, rfl, rfl, .inl ⟨rfl, rfl⟩⟩
  | some bytes =>
    rcases m.host.send_cases c.socket bytes with ⟨hsent, -⟩ | hrefused
    · simp only [hsent]
      apply ensures_pure.2
      refine .inr ⟨[.send c.socket bytes], ⟨rfl, [_], rfl, rfl, rfl⟩, _, rfl, rfl, rfl,
        .inr ⟨?_, rfl⟩⟩
      rw [hpending]
      rfl
    · simp only [hrefused]
      have hsame : m.Brings [] [] (m.putCommand ({ c with pending := none }, m.host)) :=
        brings_of_eq rfl rfl
      exact (finishes_fail htell hobserved hsame).mono (fun _ _ ↦ .inl) fun _ ↦ id

/-- What an event of the command socket comes to: the connection is there, the session fails, the
exchange in flight goes on, or it is over and the session takes notice. -/
theorem ensures_onCommand (hc : m.session.command = some c) (hbusy : c.exchange ≠ none)
    {e : Channel.Event} {P : Machine → Prop}
    (hconnected : e = .connected →
      Ensures (react tell .commandConnected) m (fun _ ↦ P) fun _ ↦ False)
    (hfail : ∀ m', m.Brings [] [] m' → Ensures (fail tell) m' (fun _ ↦ P) fun _ ↦ False)
    (hgoes : ∀ after, m.GoesOn c [] after → P after)
    (hover : ∀ m' c' signal, c.IsEnd e → m.Brings [] [] m' →
      m'.session = { m.session with command := some c' } → c'.socket = c.socket →
      c'.exchange = none → ((∃ response, signal = .commandAnswered c.exchange response) ∨
        signal = .commandRefused ∨ signal = .commandLost) →
      Ensures (react tell signal) m' (fun _ ↦ P) fun _ ↦ False) :
    Ensures (onCommand tell e) m (fun _ ↦ P) fun _ ↦ False := by
  cases e with
  | connected => exact hconnected rfl
  | received bytes =>
    rw [onCommand, ensures_bind, ensures_withCommand_of_eq hc, CommandLink.receive]
    cases hpoll : (c.framer.feed bytes).poll with
    | mk found framer =>
      rcases found with error | _ | response
      · exact hfail _ (brings_of_eq rfl rfl)
      · apply ensures_pure.2
        exact hgoes _ ⟨brings_of_eq rfl rfl, _, rfl, rfl, rfl, .inl ⟨rfl, rfl⟩⟩
      · have hend : c.IsEnd (.received bytes) := ⟨response, congrArg Prod.fst hpoll⟩
        exact hover _ _ _ hend ⟨rfl, [_], rfl, rfl, rfl⟩ rfl rfl rfl (.inl ⟨response, rfl⟩)
  | closed code =>
    obtain ⟨what, hwhat⟩ := Option.ne_none_iff_exists'.1 hbusy
    rw [onCommand, ensures_bind, ensures_withCommand_of_eq hc, ensures_ite]
    constructor
    · intro _
      exact hover _ _ _ trivial (brings_of_eq rfl rfl) rfl rfl rfl (.inr (.inl rfl))
    · intro _
      rw [ensures_ite]
      constructor
      · intro _
        exact hover _ _ _ trivial (brings_of_eq rfl rfl) rfl rfl rfl (.inr (.inr rfl))
      · intro hnone
        simp [CommandLink.abort, hwhat] at hnone

/-- While the session waits to sign out, an event of the command socket lets the exchange in flight
go on, ends the session, or ends the exchange; then the exchange to sign out begins. -/
theorem leaves_onCommand (htell : Listens tell) (hobserved : m.observed = true)
    (hc : m.session.command = some c) (hbusy : c.exchange ≠ none)
    (hphase : m.session.phase = .signingOutPending)
    (hwritable : Numeral.IsWritable m.session.selfId) (e : Channel.Event) :
    Ensures (onCommand tell e) m
      (fun _ after ↦ m.Finishes [] after ∨ (∃ work, m.GoesOn c work after) ∨
        c.IsEnd e ∧ ∃ sent c', Exchange.Tells c.exchange sent ∧ c'.socket = c.socket ∧
          m.Leaves c' sent after)
      fun _ ↦ False := by
  apply ensures_onCommand hc hbusy
  · intro _
    rw [react, ensures_bind, ensures_phase, hphase]
    apply (goesOn_writeRequest htell hobserved hc).mono
    · rintro _ after (hend | hgoes)
      · exact .inl hend
      · exact .inr (.inl hgoes)
    · exact fun _ ↦ id
  · intro m' hbefore
    exact (finishes_fail htell hobserved hbefore).mono (fun _ _ ↦ .inl) fun _ ↦ id
  · intro after hgoes
    exact .inr (.inl ⟨[], hgoes⟩)
  · intro m' c' signal hend hbefore hsession hsocket hidle hsignal
    have hobserved' := hbefore.observed.trans hobserved
    have hc' : m'.session.command = some c' := by rw [hsession]
    have hphase' : m'.session.phase = .signingOutPending := by rw [hsession]; exact hphase
    have hwritable' : Numeral.IsWritable m'.session.selfId := by rw [hsession]; exact hwritable
    have haddress : m'.session.address = m.session.address := by rw [hsession]
    rw [react, ensures_bind, ensures_phase, hphase']
    rcases hsignal with ⟨response, rfl⟩ | rfl | rfl
    · have hall := leaves_acceptDeferred htell hobserved' hc' hidle hphase' hwritable' c.exchange
        response
      apply hall.mono
      · rintro _ after ⟨sent, htold, hleaves⟩
        exact .inr (.inr ⟨hend, sent, c', htold, hsocket, hleaves.after hbefore haddress⟩)
      · exact fun _ ↦ id
    · exact (finishes_fail htell hobserved hbefore).mono (fun _ _ ↦ .inl) fun _ ↦ id
    · have hon : m'.session.phase ≠ .disconnected ∧ m'.session.phase ≠ .signingOut := by
        rw [hphase']
        decide
      have hout := leaves_signOut htell hobserved' hc' hidle hon hwritable'
      have hall := hout.leaves hbefore haddress
      rw [ensures_discard]
      apply hall.mono
      · exact fun _ after hleaves ↦ .inr (.inr ⟨hend, _, c', .inl rfl, hsocket, hleaves⟩)
      · exact fun _ ↦ id

/-- While the session signs out, an event of the command socket lets this go on, or ends the
session. -/
theorem finishes_onCommand (htell : Listens tell) (hobserved : m.observed = true)
    (hc : m.session.command = some c) (hbusy : c.exchange ≠ none)
    (hphase : m.session.phase = .signingOut) (e : Channel.Event) :
    Ensures (onCommand tell e) m
      (fun _ after ↦ m.Finishes [] after ∨ ∃ work, m.GoesOn c work after) fun _ ↦ False := by
  apply ensures_onCommand hc hbusy
  · intro _
    rw [react, ensures_bind, ensures_phase, hphase]
    exact goesOn_writeRequest htell hobserved hc
  · intro m' hbefore
    exact (finishes_fail htell hobserved hbefore).mono (fun _ _ ↦ .inl) fun _ ↦ id
  · intro after hgoes
    exact .inr ⟨[], hgoes⟩
  · intro m' c' signal _ hbefore hsession _ _ hsignal
    have hphase' : m'.session.phase = .signingOut := by rw [hsession]; exact hphase
    have hfail : Ensures (fail tell) m'
        (fun _ after ↦ m.Finishes [] after ∨ ∃ work, m.GoesOn c work after) fun _ ↦ False :=
      (finishes_fail htell hobserved hbefore).mono (fun _ _ ↦ .inl) fun _ ↦ id
    rw [react, ensures_bind, ensures_phase, hphase']
    rcases hsignal with ⟨response, rfl⟩ | rfl | rfl
    all_goals exact hfail

end SessionM

end Rendezvous
