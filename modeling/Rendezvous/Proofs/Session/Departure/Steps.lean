import Rendezvous.Proofs.Session.Departure.Leaving

/-!
# How a session stands while it is left

Once a session was asked to sign out, the exchange that was in flight goes on, or an exchange to
sign out has begun, or the session is over. Each thing that happens leads from one of these to
another, and brings only what the way there takes.
-/

namespace Rendezvous

/-- The request that the command link has queued and not written. -/
def Session.queued (s : Session) : List Action :=
  (s.command.bind fun c => c.pending.map (Action.send c.socket)).toList

/-- Whether there is no retry, no lookup and no wait to give up. -/
structure Session.IsQuiet (s : Session) : Prop where
  retry : s.retry.cancel = s.retry
  resolver : s.resolver = .idle
  notify : s.notify.map NotifyLink.abort = s.notify

/-- The requests of an exchange to sign out under an id, over a socket, as far as they were made:
the socket is dialled, and then the request is written. -/
inductive IsTelling (socket : Nat) (id : Int) : List Action → Prop where
  | dialled (address : Address) : IsTelling socket id [.connect socket address]
  | written (address : Address) {request : Bytes}
      (encoded : (Wire.Request.signOut id >>= Wire.Request.encode) = .ok request) :
      IsTelling socket id [.connect socket address, .send socket request]

namespace Machine

/-- How a session that is being left stands, what it asked for and what it told since it was as in
`m`. -/
inductive Departs (m : Machine) : Machine → List Action → List Event → Prop where
  /-- The exchange that was in flight still is. -/
  | waiting {now : Machine} {c c' : CommandLink} {work : List Action}
      (was : m.session.command = some c) (busy : c.exchange ≠ none)
      (link : now.session.command = some c') (socket : c'.socket = c.socket)
      (exchange : c'.exchange = c.exchange)
      (phase : now.session.phase = .signingOutPending ∧ now.session.IsQuiet ∨
        now.session.phase = .signingOut ∧ m.session.phase = .signingOut)
      (written : work = [] ∧ c'.pending = c.pending ∨
        work = m.session.queued ∧ c'.pending = none) : Departs m now work []
  /-- An exchange to sign out has begun. -/
  | telling {now : Machine} {c c' : CommandLink} (address : Address) {request : Bytes}
      {written told : List Action} {sent : List Event}
      (was : m.session.command = some c) (link : now.session.command = some c')
      (socket : c'.socket = c.socket) (exchange : c'.exchange = some .signOut)
      (phase : now.session.phase = .signingOut)
      (encoded : (Wire.Request.signOut now.session.selfId >>= Wire.Request.encode) = .ok request)
      (first : written = [] ∨ written = m.session.queued)
      (then_ : told = [.connect c.socket address] ∧ c'.pending = some request ∨
        told = [.connect c.socket address, .send c.socket request] ∧ c'.pending = none)
      (reports : Exchange.Tells m.session.exchange? sent) : Departs m now (written ++ told) sent
  /-- The session is over. -/
  | gone {now : Machine} {written told : List Action} {sent : List Event}
      (phase : now.session.phase = .disconnected)
      (first : written = [] ∨ written = m.session.queued)
      (then_ : told = [] ∨ ∃ c ∈ m.session.command, ∃ id, IsTelling c.socket id told)
      (reports : Exchange.Tells m.session.exchange? sent) :
      Departs m now (written ++ told) (sent ++ [.disconnected])

variable {config : Config} {m now next : Machine} {c : CommandLink} {work : List Action}
  {news sent : List Event}

private theorem session_quiet_of_isQuiet (h : m.session.IsQuiet) : m.quiet.session = m.session := by
  rw [session_quiet, h.retry, h.notify, ← h.resolver]

private theorem isQuiet_quiet (m : Machine) : m.quiet.session.IsQuiet := by
  rw [session_quiet]
  refine ⟨rfl, rfl, ?_⟩
  cases m.session.notify <;> rfl

/-- What the session is at is the same while neither its phase nor its id nor its command link
changes. -/
theorem Departs.same (h : m.Departs now work news)
    (hcommand : next.session.command = now.session.command)
    (hphase : next.session.phase = now.session.phase)
    (hid : next.session.selfId = now.session.selfId)
    (hquiet : now.session.IsQuiet → next.session.IsQuiet) : m.Departs next work news := by
  cases h with
  | waiting was busy link socket exchange phase written =>
    rw [← hcommand] at link
    rw [← hphase] at phase
    exact .waiting was busy link socket exchange (phase.imp_left (And.imp_right hquiet)) written
  | telling address was link socket exchange phase encoded first then_ reports =>
    rw [← hcommand] at link
    rw [← hid] at encoded
    exact .telling address was link socket exchange (hphase.trans phase) encoded first then_ reports
  | gone phase first then_ reports => exact .gone (hphase.trans phase) first then_ reports

/-- What a session has queued is what its command link has. -/
theorem queued_of_command (hc : m.session.command = some c) :
    m.session.queued = c.pending.toList.map (.send c.socket) := by
  rw [Session.queued, hc, Option.bind_some]
  cases c.pending <;> rfl

/-- A session that is not over stands on its command link, with an exchange in flight. -/
theorem Departs.exists_link (h : m.Departs now work news)
    (hbusy : now.session.phase ≠ .disconnected) :
    ∃ c, now.session.command = some c ∧ c.exchange ≠ none ∧
      (now.session.phase = .signingOut ∨
        now.session.phase = .signingOutPending ∧ now.session.IsQuiet) := by
  cases h with
  | waiting was busy link socket exchange phase written =>
    refine ⟨_, link, exchange ▸ busy, ?_⟩
    rcases phase with ⟨hpending, hquiet⟩ | ⟨hout, -⟩
    · exact .inr ⟨hpending, hquiet⟩
    · exact .inl hout
  | telling address was link socket exchange phase =>
    refine ⟨_, link, ?_, .inl phase⟩
    rw [exchange]
    decide
  | gone phase => exact absurd phase hbusy

/-- What is left to write of an exchange in flight is written at most once. -/
theorem Departs.goesOn (h : m.Departs now work news) (hbusy : now.session.phase ≠ .disconnected)
    (hc : now.session.command = some c) {more : List Action} (hgoes : now.GoesOn c more next) :
    m.Departs next (work ++ more) news := by
  obtain ⟨-, c₂, hsession, hsocket, hexchange, hmore⟩ := hgoes
  have hlink : next.session.command = some c₂ := by rw [hsession]
  have hphase : next.session.phase = now.session.phase := by rw [hsession]
  have hid : next.session.selfId = now.session.selfId := by rw [hsession]
  have hquiet (hnow : now.session.IsQuiet) : next.session.IsQuiet := by
    rw [hsession]
    exact ⟨hnow.retry, hnow.resolver, hnow.notify⟩
  cases h with
  | @waiting c₀ c₁ _ was busy link socket exchange phase written =>
    cases link.symm.trans hc
    rw [← hphase] at phase
    refine .waiting was busy hlink (hsocket.trans socket) (hexchange.trans exchange)
      (phase.imp_left (And.imp_right hquiet)) ?_
    rcases hmore with ⟨rfl, hsame⟩ | ⟨rfl, hwritten⟩
    · rw [List.append_nil, hsame]
      exact written
    · right
      rcases written with ⟨rfl, hpending⟩ | ⟨rfl, hpending⟩
      · refine ⟨?_, hwritten⟩
        rw [queued_of_command was, hpending, socket, List.nil_append]
      · refine ⟨?_, hwritten⟩
        rw [hpending]
        simp
  | @telling c₀ c₁ address request written told _ was link socket exchange phase encoded first
      then_ reports =>
    cases link.symm.trans hc
    rw [← hid] at encoded
    rw [List.append_assoc]
    refine .telling address was hlink (hsocket.trans socket) (hexchange.trans exchange)
      (hphase.trans phase) encoded first ?_ reports
    rcases hmore with ⟨rfl, hsame⟩ | ⟨rfl, hwritten⟩
    · rw [List.append_nil, hsame]
      exact then_
    · right
      rcases then_ with ⟨rfl, hpending⟩ | ⟨rfl, hpending⟩
      · refine ⟨?_, hwritten⟩
        rw [hpending, socket]
        rfl
      · refine ⟨?_, hwritten⟩
        rw [hpending]
        rfl
  | gone phase => exact absurd phase hbusy

/-- The session may end at any time, with a report of the relay that was in flight at most. -/
theorem Departs.finishes (h : m.Departs now work news)
    (hbusy : now.session.phase ≠ .disconnected) (hfinish : now.Finishes sent next)
    (hsent : sent = [] ∨ now.session.phase = .signingOutPending ∧
      Exchange.Tells m.session.exchange? sent) :
    m.Departs next work (news ++ (sent ++ [.disconnected])) := by
  cases h with
  | waiting was busy link socket exchange phase written =>
    have hreports : Exchange.Tells m.session.exchange? sent := by
      rcases hsent with rfl | ⟨-, hsent⟩
      · exact .inl rfl
      · exact hsent
    have hwritten : work = [] ∨ work = m.session.queued := written.imp And.left And.left
    have hgone := Departs.gone (m := m) hfinish.phase hwritten (.inl rfl) hreports
    rwa [List.append_nil] at hgone
  | telling address was link socket exchange phase encoded first then_ reports =>
    obtain rfl : sent = [] := by
      rcases hsent with rfl | ⟨hpending, -⟩
      · rfl
      · cases phase.symm.trans hpending
    refine .gone hfinish.phase first (.inr ⟨_, was, now.session.selfId, ?_⟩) reports
    rcases then_ with ⟨rfl, -⟩ | ⟨rfl, -⟩
    · exact .dialled _
    · exact .written _ encoded
  | gone phase => exact absurd phase hbusy

/-- The exchange to sign out begins when the one that was waited for is over. -/
theorem Departs.begins (h : m.Departs now work news)
    (hphase : now.session.phase = .signingOutPending) (hc : now.session.command = some c)
    {c' : CommandLink} (hsocket : c'.socket = c.socket) (hbegin : now.Begins c' sent next)
    (hsent : Exchange.Tells m.session.exchange? sent) :
    m.Departs next (work ++ [.connect c'.socket now.session.address]) (news ++ sent) := by
  cases h with
  | waiting was busy link socket exchange phase written =>
    cases link.symm.trans hc
    obtain ⟨request, encoded, hlink⟩ := hbegin.link
    rw [List.nil_append]
    refine .telling now.session.address was hlink (hsocket.trans socket) rfl hbegin.phase encoded
      (written.imp And.left And.left) (.inl ⟨?_, rfl⟩) hsent
    rw [hsocket, socket]
  | telling _ was link socket exchange phase => cases phase.symm.trans hphase
  | gone phase => cases phase.symm.trans hphase

/-- Leaving advances by what something brings. The last thing to happen brings no work, and only the
end of the exchange that was waited for lets the session sign out. -/
structure Advances (m now : Machine) (work : List Action) (news : List Event) (ended : Prop)
    (next : Machine) : Prop where
  departs : ∃ more reports, now.Brings more reports next ∧
    m.Departs next (work ++ more) (news ++ reports) ∧
    (next.session.phase = .disconnected → more = [])
  waits : now.session.phase = .signingOutPending → next.session.phase = .signingOut → ended

variable {ended : Prop}

private theorem Departs.advances (h : m.Departs now work news) (hbrings : now.Brings [] [] next)
    (hcommand : next.session.command = now.session.command)
    (hphase : next.session.phase = now.session.phase)
    (hid : next.session.selfId = now.session.selfId)
    (hquiet : now.session.IsQuiet → next.session.IsQuiet) :
    m.Advances now work news ended next where
  departs := by
    refine ⟨[], [], hbrings, ?_, fun _ ↦ rfl⟩
    rw [List.append_nil, List.append_nil]
    exact h.same hcommand hphase hid hquiet
  waits hpending hout := by
    rw [hphase, hpending] at hout
    cases hout

/-- What comes after something that changes nothing but sockets. -/
theorem Advances.after {now' : Machine} (h : m.Advances now' work news ended next)
    (hbrings : now.Brings [] [] now') (hphase : now'.session.phase = now.session.phase) :
    m.Advances now work news ended next where
  departs := by
    obtain ⟨more, reports, hmore, hdeparts, hend⟩ := h.departs
    exact ⟨more, reports, hmore.after hbrings, hdeparts, hend⟩
  waits := by
    rw [← hphase]
    exact h.waits

private theorem Departs.advances_goesOn (h : m.Departs now work news)
    (hbusy : now.session.phase ≠ .disconnected) (hc : now.session.command = some c)
    {more : List Action} (hgoes : now.GoesOn c more next) :
    m.Advances now work news ended next where
  departs := by
    refine ⟨more, [], hgoes.brings, ?_, ?_⟩
    · rw [List.append_nil]
      exact h.goesOn hbusy hc hgoes
    · intro hover
      obtain ⟨c', hsession, -⟩ := hgoes.link
      rw [hsession] at hover
      exact absurd hover hbusy
  waits hpending hout := by
    obtain ⟨c', hsession, -⟩ := hgoes.link
    rw [hsession] at hout
    cases hpending.symm.trans hout

private theorem Departs.advances_finishes (h : m.Departs now work news)
    (hbusy : now.session.phase ≠ .disconnected) (hfinish : now.Finishes sent next)
    (hsent : sent = [] ∨ now.session.phase = .signingOutPending ∧
      Exchange.Tells m.session.exchange? sent) :
    m.Advances now work news ended next where
  departs := by
    refine ⟨[], _, hfinish.brings, ?_, fun _ ↦ rfl⟩
    rw [List.append_nil]
    exact h.finishes hbusy hfinish hsent
  waits _ hout := by
    cases hfinish.phase.symm.trans hout

private theorem Departs.advances_begins (h : m.Departs now work news)
    (hphase : now.session.phase = .signingOutPending) (hc : now.session.command = some c)
    {c' : CommandLink} (hsocket : c'.socket = c.socket) (hbegin : now.Begins c' sent next)
    (hsent : Exchange.Tells m.session.exchange? sent) (hended : ended) :
    m.Advances now work news ended next where
  departs := by
    refine ⟨_, _, hbegin.brings, h.begins hphase hc hsocket hbegin hsent, ?_⟩
    intro hover
    cases hbegin.phase.symm.trans hover
  waits _ _ := hended

/-- While the exchange that was in flight still is, it is the one it was. -/
theorem Departs.exchange?_eq (h : m.Departs now work news)
    (hphase : now.session.phase = .signingOutPending) :
    now.session.exchange? = m.session.exchange? := by
  cases h with
  | waiting was busy link socket exchange =>
    rw [Session.exchange?_of_command link, Session.exchange?_of_command was, exchange]
  | telling _ was link socket exchange phase => cases phase.symm.trans hphase
  | gone phase => cases phase.symm.trans hphase

end Machine

namespace SessionM

open Machine

variable {config : Config} {tell : Event → SessionM Unit} {m now : Machine} {work : List Action}
  {news : List Event} {c : CommandLink} {ended : Prop}

private theorem advances_onCommand (h : m.Departs now work news) (htell : Listens tell)
    (hobserved : now.observed = true) (hbusy : now.session.phase ≠ .disconnected)
    (hc : now.session.command = some c) (hwritable : Numeral.IsWritable now.session.selfId)
    (e : Channel.Event) :
    Ensures (onCommand tell e) now (fun _ ↦ m.Advances now work news (c.IsEnd e))
      fun _ ↦ False := by
  obtain ⟨c', hc', hx, hout | ⟨hpending, -⟩⟩ := h.exists_link hbusy
  · cases hc'.symm.trans hc
    apply (finishes_onCommand htell hobserved hc hx hout e).mono
    · rintro _ next (hfinish | ⟨more, hgoes⟩)
      · exact h.advances_finishes hbusy hfinish (.inl rfl)
      · exact h.advances_goesOn hbusy hc hgoes
    · exact fun _ ↦ id
  · cases hc'.symm.trans hc
    have hexchange : c.exchange = m.session.exchange? := by
      rw [← h.exchange?_eq hpending, Session.exchange?_of_command hc]
    apply (leaves_onCommand htell hobserved hc hx hpending hwritable e).mono
    · rintro _ next (hfinish | ⟨more, hgoes⟩ | ⟨hend, sent, c', htold, hsocket, hleaves⟩)
      · exact h.advances_finishes hbusy hfinish (.inl rfl)
      · exact h.advances_goesOn hbusy hc hgoes
      · rw [hexchange] at htold
        rcases hleaves with hfinish | hbegin
        · exact h.advances_finishes hbusy hfinish (.inr ⟨hpending, htold⟩)
        · exact h.advances_begins hpending hc hsocket hbegin htold hend
    · exact fun _ ↦ id

/-- Neither lookups nor timers mean anything to a session that is being left. -/
theorem ensures_react_ignored (hphase : m.session.phase = .signingOut ∨
    m.session.phase = .signingOutPending) {signal : Signal}
    (hsignal : (∃ ip, signal = .resolved ip) ∨ signal = .resolveFailed ∨ signal = .retryDue)
    {E : Machine → Prop} : Ensures (react tell signal) m (fun _ after ↦ after = m) E := by
  rw [react, ensures_bind, ensures_phase]
  rcases hphase with hphase | hphase <;> rw [hphase] <;>
    rcases hsignal with ⟨ip, rfl⟩ | rfl | rfl <;> exact ensures_pure.2 rfl

private theorem advances_onAnswer (h : m.Departs now work news)
    (hphase : now.session.phase = .signingOut ∨ now.session.phase = .signingOutPending)
    (ip : Option String) {E : Machine → Prop} :
    Ensures (onAnswer tell ip) now (fun _ ↦ m.Advances now work news ended) E := by
  have hsame : m.Advances now work news ended now := h.advances (.refl now) rfl rfl rfl id
  cases ip with
  | none =>
    apply (ensures_react_ignored hphase (.inr (.inl rfl))).mono
    · rintro _ _ rfl
      exact hsame
    · exact fun _ ↦ id
  | some ip =>
    apply (ensures_react_ignored hphase (.inl ⟨ip, rfl⟩)).mono
    · rintro _ _ rfl
      exact hsame
    · exact fun _ ↦ id

private theorem advances_onLookup (h : m.Departs now work news)
    (hphase : now.session.phase = .signingOut ∨ now.session.phase = .signingOutPending)
    (ip : Option String) {E : Machine → Prop} :
    Ensures (onLookup tell ip) now (fun _ ↦ m.Advances now work news ended) E := by
  rw [onLookup, ensures_bind, ensures_remember]
  have hidle : m.Departs { now with session := { now.session with resolver := .idle } } work news :=
    h.same rfl rfl rfl fun hquiet ↦ ⟨hquiet.retry, rfl, hquiet.notify⟩
  apply (advances_onAnswer hidle hphase ip).mono
  · intro _ next hnext
    exact hnext.after (brings_of_eq rfl rfl) rfl
  · exact fun _ ↦ id

private theorem advances_onTimer (h : m.Departs now work news)
    (hphase : now.session.phase = .signingOut ∨ now.session.phase = .signingOutPending)
    (timer : Nat) {E : Machine → Prop} :
    Ensures (onTimer tell timer) now (fun _ ↦ m.Advances now work news ended) E := by
  simp only [onTimer, ensures_bind, ensures_get]
  cases hfire : now.session.retry.fire? timer with
  | none =>
    apply ensures_pure.2
    exact h.advances (.refl now) rfl rfl rfl id
  | some retry =>
    obtain ⟨-, rfl⟩ := RetryTimer.fire?_eq_some_iff.1 hfire
    rw [ensures_bind, ensures_remember]
    let disarmed : Machine :=
      { now with session := { now.session with retry := now.session.retry.cancel } }
    have hdisarmed : m.Advances now work news ended disarmed :=
      h.advances (brings_of_eq rfl rfl) rfl rfl rfl
        fun hquiet ↦ ⟨rfl, hquiet.resolver, hquiet.notify⟩
    have hleaving : disarmed.session.phase = .signingOut ∨
        disarmed.session.phase = .signingOutPending := hphase
    apply (ensures_react_ignored hleaving (.inr (.inr rfl))).mono
    · rintro _ _ rfl
      exact hdisarmed
    · exact fun _ ↦ id

/-- Only the command socket of a session that is being left is open. -/
theorem advances_onSocket (htell : Listens tell) (hobserved : now.observed = true)
    (hstands : now.Stands config False .none) (h : m.Departs now work news)
    (hbusy : now.session.phase ≠ .disconnected) {k : Nat} {e : Channel.Event}
    (hpermits : (now.host.phaseOf k).Permits e) :
    Ensures (onSocket tell k e) now
      (fun _ ↦ m.Advances now work news (∃ c ∈ now.session.command, c.socket = k ∧ c.IsEnd e))
      fun _ ↦ False := by
  have hopen : now.host.phaseOf k ≠ .closed := by
    intro hclosed
    rw [hclosed] at hpermits
    cases e <;> simp [Channel.Phase.Permits] at hpermits
  obtain ⟨c, hc, -, hphase⟩ := h.exists_link hbusy
  have hwritable : Numeral.IsWritable now.session.selfId := by
    cases hstands with
    | disconnected _ reset => exact absurd reset.phase hbusy
    | resolving _ _ _ _ _ _ _ closed => exact absurd (closed k) hopen
    | linked _ _ _ _ writable => exact writable.id
  have hnotify (n : NotifyLink) (hn : now.session.notify = some n) : n.socket ≠ k := by
    rintro rfl
    have hconnected := hstands.listening hn hopen
    rcases hphase with hphase | ⟨hphase, -⟩ <;> cases hphase.symm.trans hconnected
  have hown : c.socket = k := by
    by_cases hown : now.Owns k
    · rcases hown with ⟨c', hc', hk⟩ | ⟨n, hn, hk⟩
      · cases hc.symm.trans hc'
        exact hk
      · exact absurd hk (hnotify n hn)
    · exact absurd (hstands.tidy.closed k hown) hopen
  subst hown
  simp only [onSocket, ensures_bind, ensures_modify, ensures_get, hc, Option.any_some,
    decide_true, if_true]
  let opened : Machine := { now with
    host := now.host.setPhase c.socket ((now.host.phaseOf c.socket).after e) }
  have hopened : m.Departs opened work news := h.same rfl rfl rfl id
  apply (advances_onCommand hopened htell hobserved hbusy hc hwritable e).mono
  · intro _ next hnext
    have hall : m.Advances now work news (c.IsEnd e) next := hnext.after (brings_of_eq rfl rfl) rfl
    exact ⟨hall.departs, fun hpending hout ↦ ⟨c, rfl, rfl, hall.waits hpending hout⟩⟩
  · exact fun _ ↦ id

/-- Asking to sign out again changes nothing. -/
theorem ensures_signOut_again (hstands : m.Stands config False .none)
    (hphase : m.session.phase = .disconnected ∨ m.session.phase = .signingOut ∨
      m.session.phase = .signingOutPending ∧ m.session.IsQuiet) :
    Ensures (signOut tell) m (fun reply after ↦ reply = true ∧ m.Adds [] after ∧
      m.Brings [] [] after ∧ after.session = m.session ∧
      ∀ k, after.host.phaseOf k = m.host.phaseOf k) fun _ ↦ False := by
  simp only [signOut, ensures_bind, ensures_phase, ensures_ite, ensures_pure, ensures_modify,
    ensures_get, ensures_enter, quiet_eq, Bool.or_eq_true, decide_eq_true_eq]
  constructor
  · intro _
    exact ⟨trivial, .refl m, .refl m, trivial, fun _ ↦ trivial⟩
  · intro hon
    rw [not_or] at hon
    rcases hphase with hphase | hphase | ⟨hphase, hquiet⟩
    · exact absurd hphase hon.1
    · exact absurd hphase hon.2
    · have hsession := session_quiet_of_isQuiet hquiet
      cases hstands with
      | disconnected _ reset => exact absurd reset.phase hon.1
      | resolving _ phase => cases hphase.symm.trans phase
      | linked c n hconfig links writable fits =>
        rw [hphase] at fits
        obtain ⟨-, hclosed, hx⟩ := fits
        have hbusy : m.quiet.session.command.any CommandLink.isBusy = true := by
          rw [hsession, links.command, Option.any_some, CommandLink.isBusy]
          rcases hx with ⟨hx, -⟩ | ⟨hx, -⟩ | ⟨-, hslack⟩
          · rw [hx]
            rfl
          · rw [hx]
            rfl
          · cases hslack
        have hsame : (m.quiet.setPhase .signingOutPending).session = m.session := by
          rw [setPhase, hsession, ← hphase]
        refine ⟨fun _ ↦ ⟨trivial, .of_asks m.asks_quiet m.observed_quiet, ?_, hsame, fun k ↦ ?_⟩,
          fun hidle ↦ absurd hbusy hidle⟩
        · exact m.brings_quiet.trans (brings_of_eq rfl rfl)
        · show m.quiet.host.phaseOf k = m.host.phaseOf k
          rw [phaseOf_quiet, links.notify, Option.any_some]
          by_cases hk : n.socket = k
          · subst hk
            simp [hclosed]
          · simp [hk]

private theorem advances_perform (htell : Listens tell) (hobserved : now.observed = true)
    (hstands : now.Stands config False .none) (h : m.Departs now work news)
    (hbusy : now.session.phase ≠ .disconnected) {call : Call} (hclose : call ≠ .close)
    {E : Machine → Prop} :
    Ensures (perform tell call) now (fun _ ↦ m.Advances now work news ended) E := by
  obtain ⟨c, hc, -, hphase⟩ := h.exists_link hbusy
  have hsame : m.Advances now work news ended now := h.advances (.refl now) rfl rfl rfl id
  have hsend (peer : Int) (payload : Except Wire.RequestError Bytes) :
      Ensures (sendTo tell peer payload) now (fun _ ↦ m.Advances now work news ended) E := by
    simp only [sendTo, ensures_bind, ensures_get, ensures_ite, ensures_pure]
    refine ⟨fun _ ↦ hsame, fun hconnected ↦ ?_⟩
    rcases hphase with hphase | ⟨hphase, -⟩ <;> simp [hphase] at hconnected
  cases call with
  | connect server port name =>
    simp only [perform, connect, ensures_map, ensures_bind, ensures_get, ensures_ite, ensures_pure]
    constructor
    · intro _
      apply ensures_tell htell hobserved
      exact h.advances (now.brings_refusal _) rfl rfl rfl id
    · intro hfree
      simp [hbusy] at hfree
  | send peer text => exact ensures_map.2 (hsend peer _)
  | sendBytes peer _ => exact ensures_map.2 (hsend peer _)
  | hangUp peer => exact ensures_map.2 (hsend peer _)
  | signOut =>
    apply ensures_map.2
    apply (ensures_signOut_again hstands (.inr hphase)).mono
    · rintro _ next ⟨-, -, hbrings, hsession, -⟩
      apply h.advances hbrings
      all_goals rw [hsession]
      exact id
    · exact fun _ ↦ False.elim
  | close => exact absurd rfl hclose

end SessionM

/-- Whether something that happens is the end of the exchange in flight. -/
def Step.IsEnd (m : Machine) (s : Step) : Prop :=
  ∃ c ∈ m.session.command, ∃ ref e, s = .socket ref e ∧ m.find? ref = some c.socket ∧ c.IsEnd e

namespace Machine

open SessionM

variable {config : Config} {m now : Machine} {work : List Action} {news : List Event} {depth : Nat}

/-- Every lawful step of a session that is leaving advances its departure. -/
theorem advances_step (depth : Nat) (hobserved : now.observed = true)
    (hstands : now.Stands config False .none)
    (h : m.Departs now work news) (hbusy : now.session.phase ≠ .disconnected) {s : Step}
    (hs : s.IsLawful now) (hclose : s ≠ .call .close) :
    m.Advances now work news (s.IsEnd now) (now.step .silent depth s).2 := by
  have htell := listens_silent depth
  obtain ⟨c, hc, -, hphase⟩ := h.exists_link hbusy
  have hleaving : now.session.phase = .signingOut ∨ now.session.phase = .signingOutPending :=
    hphase.imp_right And.left
  have hsame : m.Advances now work news (s.IsEnd now) now := h.advances (.refl now) rfl rfl rfl id
  have hgrant (f : Policy → Policy) : m.Advances now work news (s.IsEnd now) (now.grant f) :=
    h.advances (brings_of_eq rfl rfl) rfl rfl rfl id
  have hreact : Ensures (react (Observer.silent.tell depth) s) now
      (fun _ ↦ m.Advances now work news (s.IsEnd now))
      (m.Advances now work news (s.IsEnd now)) := by
    cases s with
    | call c =>
      simp only [react, ensures_bind, ensures_pure]
      exact advances_perform htell hobserved hstands h hbusy fun heq ↦ hclose (congrArg _ heq)
    | observe =>
      simp only [react, ensures_bind, ensures_get, ensures_ite, ensures_throw, ensures_modify,
        ensures_pure]
      exact ⟨fun _ ↦ hsame, fun hnot ↦ absurd hobserved hnot⟩
    | answer ip =>
      simp only [react, ensures_bind, ensures_get, ensures_ite, ensures_pure]
      exact ⟨fun _ ↦ advances_onLookup h hleaving ip, fun _ ↦ hsame⟩
    | lateAnswer ip =>
      simp only [react, ensures_bind, ensures_pure]
      exact advances_onAnswer h hleaving ip
    | fire timer =>
      simp only [react, ensures_bind, ensures_get, ensures_ite, ensures_pure]
      exact ⟨fun _ ↦ advances_onTimer h hleaving timer, fun _ ↦ hsame⟩
    | socket ref event =>
      simp only [react, ensures_bind, ensures_get]
      cases hfound : now.find? ref with
      | none => exact ensures_pure.2 hsame
      | some k =>
        simp only [ensures_bind, ensures_pure]
        apply (advances_onSocket htell hobserved hstands h hbusy (hs k hfound)).mono
        · intro _ next hnext
          refine ⟨hnext.departs, fun hpending hout ↦ ?_⟩
          obtain ⟨c, hc, rfl, hend⟩ := hnext.waits hpending hout
          exact ⟨c, hc, ref, event, rfl, hfound, hend⟩
        · exact fun _ ↦ False.elim
    | accept role granted =>
      simp only [react, ensures_bind, ensures_modify, ensures_pure]
      exact hgrant _
    | sendable role granted =>
      simp only [react, ensures_bind, ensures_modify, ensures_pure]
      exact hgrant _
    | resolvable granted =>
      simp only [react, ensures_bind, ensures_modify, ensures_pure]
      exact hgrant _
  exact hreact.runWith

/-- The beginning of leaving: what it brings, and how the session stands then. -/
def SetsOut (m next : Machine) : Prop :=
  ∃ work news, m.Brings work news next ∧ m.Departs next work news ∧
    (next.session.phase = .disconnected → work = [])

private theorem Finishes.setsOut {next : Machine} (h : m.Finishes [] next) : m.SetsOut next :=
  ⟨[], [.disconnected], h.brings, .gone h.phase (.inl rfl) (.inl rfl) (.inl rfl), fun _ ↦ rfl⟩

/-- The call to sign out lets an exchange in flight go on, and otherwise ends the session or begins
to sign out. -/
theorem setsOut_signOut {tell : Event → SessionM Unit} (htell : Listens tell)
    (hobserved : m.observed = true) (hstands : m.Stands config False .none)
    (hbusy : m.session.phase ≠ .disconnected) :
    Ensures (signOut tell) m (fun _ ↦ m.SetsOut) fun _ ↦ False := by
  have hsession := m.session_quiet
  cases hstands with
  | disconnected _ reset => exact absurd reset.phase hbusy
  | resolving _ phase unlinked unset _ _ _ closed =>
    have hcommand : m.quiet.session.command = m.session.command := by rw [hsession]
    have hidle : ¬ m.session.command.any CommandLink.isBusy := by
      rw [Option.any_eq_true]
      rintro ⟨c, hc, hbusy⟩
      exact Option.isSome_iff_ne_none.1 hbusy (unlinked.exchange_eq_none hc closed)
    have hunset : m.quiet.session.selfId = Peer.unsetId := by rw [hsession]; exact unset
    simp only [signOut, ensures_bind, ensures_phase, ensures_ite, ensures_pure, ensures_modify,
      ensures_get, quiet_eq, Bool.or_eq_true, decide_eq_true_eq, hcommand, hunset]
    refine ⟨fun hout ↦ ?_, fun _ ↦ ⟨fun hbusy ↦ absurd hbusy hidle, fun _ ↦ ⟨fun _ ↦ ?_, by simp⟩⟩⟩
    · rw [phase] at hout
      simp at hout
    · apply (finishes_fail htell hobserved m.brings_quiet).mono
      · exact fun _ _ ↦ Finishes.setsOut
      · exact fun _ ↦ id
  | linked c n hconfig links writable fits =>
    by_cases hout : m.session.phase = .signingOut
    · have hx : c.exchange ≠ none := by
        rw [hout] at fits
        rw [fits.2.2.1]
        decide
      have hsame : m.Departs m [] [] := .waiting links.command hx links.command rfl rfl
        (.inr ⟨hout, hout⟩) (.inl ⟨rfl, rfl⟩)
      simp only [signOut, ensures_bind, ensures_phase, ensures_ite, ensures_pure, hout]
      exact ⟨fun _ ↦ ⟨[], [], .refl m, hsame, fun _ ↦ rfl⟩, by simp⟩
    · by_cases hidle : c.exchange = none
      · apply (leaves_signOut htell hobserved links.command hidle ⟨hbusy, hout⟩
        writable.id).mono
        · rintro _ next (hfinish | hbegin)
          · exact hfinish.setsOut
          · obtain ⟨request, encoded, hlink⟩ := hbegin.link
            refine ⟨_, _, hbegin.brings, ?_, fun hover ↦ ?_⟩
            · exact .telling m.session.address links.command hlink rfl rfl hbegin.phase encoded
                (.inl rfl) (.inl ⟨rfl, rfl⟩) (.inl rfl)
            · cases hbegin.phase.symm.trans hover
        · exact fun _ ↦ id
      · have hlink : m.quiet.session.command = some c := links.quiet.command
        have hbusyLink : c.isBusy = true := Option.isSome_iff_ne_none.2 hidle
        have hquiet : (m.quiet.setPhase .signingOutPending).session.IsQuiet :=
          ⟨m.isQuiet_quiet.retry, m.isQuiet_quiet.resolver, m.isQuiet_quiet.notify⟩
        have hwaits : m.Departs (m.quiet.setPhase .signingOutPending) [] [] :=
          .waiting links.command hidle hlink rfl rfl (.inl ⟨rfl, hquiet⟩) (.inl ⟨rfl, rfl⟩)
        simp only [signOut, ensures_bind, ensures_phase, ensures_ite, ensures_pure, ensures_modify,
          ensures_get, ensures_enter, quiet_eq, Bool.or_eq_true, decide_eq_true_eq, hlink,
          Option.any_some, hbusyLink]
        refine ⟨fun hgone ↦ ?_, fun _ ↦ ⟨fun _ ↦ ?_, fun hnot ↦ absurd trivial hnot⟩⟩
        · exact hgone.elim (absurd · hbusy) (absurd · hout)
        · exact ⟨[], [], m.brings_quiet.trans (brings_of_eq rfl rfl), hwaits, fun _ ↦ rfl⟩

end Machine

end Rendezvous
