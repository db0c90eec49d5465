import Rendezvous.Proofs.Session.Change
import Rendezvous.Proofs.Session.Departure.Steps

/-!
# Leaving is orderly

From the call to sign out on, a session does nothing but bring the exchange in flight to its end,
tell the server that it leaves, and end; nothing but that is heard, and asking again changes
nothing.
-/

namespace Rendezvous

namespace Machine

open SessionM

variable {config : Config} {m now : Machine} {work : List Action} {news : List Event} {depth : Nat}

/-- What a session that is being left has come to: what it asked for and told since it was as in
`m`. The request that was queued may have been written; a relay that was in flight may have been
reported; an exchange to sign out, under the id that is held while it is in flight, may have begun;
and the session has told of its end just if it is over. -/
def IsOrderly (m now : Machine) : Prop :=
  ∃ written told sent, workIn (m.newLines now) = written ++ told ∧
    newsIn (m.newLines now) =
      sent ++ (if now.session.phase = .disconnected then [.disconnected] else []) ∧
    (written = [] ∨ written = m.session.queued) ∧ Exchange.Tells m.session.exchange? sent ∧
    match now.session.phase with
    | .signingOutPending => told = [] ∧ sent = [] ∧ m.session.exchange? ≠ none ∧
        now.session.exchange? = m.session.exchange?
    | .signingOut => (told = [] ∧ sent = [] ∧ m.session.phase = .signingOut) ∨
        ∃ c ∈ m.session.command, IsTelling c.socket now.session.selfId told
    | .disconnected => told = [] ∨ ∃ c ∈ m.session.command, ∃ id, IsTelling c.socket id told
    | _ => False

private theorem Departs.isOrderly (h : m.Departs now work news) (hbrings : m.Brings work news now) :
    m.IsOrderly now := by
  obtain ⟨hwork, hnews⟩ := hbrings.newLines
  cases h with
  | @waiting c c' _ was busy link socket exchange phase written =>
    have hwritten : work = [] ∨ work = m.session.queued := written.imp And.left And.left
    refine ⟨work, [], [], ?_, ?_, hwritten, .inl rfl, ?_⟩
    · rw [hwork, List.append_nil]
    · rw [hnews]
      rcases phase with ⟨hphase, -⟩ | ⟨hphase, -⟩ <;> simp [hphase]
    · rcases phase with ⟨hphase, -⟩ | ⟨hphase, hout⟩
      · rw [hphase, Session.exchange?_of_command was, Session.exchange?_of_command link]
        exact ⟨rfl, rfl, busy, exchange⟩
      · rw [hphase]
        exact .inl ⟨rfl, rfl, hout⟩
  | @telling c c' address request written told _ was link socket exchange phase encoded first then_
      reports =>
    refine ⟨written, told, news, hwork, ?_, first, reports, ?_⟩
    · rw [hnews]
      simp [phase]
    · rw [phase]
      refine .inr ⟨c, was, ?_⟩
      rcases then_ with ⟨rfl, -⟩ | ⟨rfl, -⟩
      · exact .dialled address
      · exact .written address encoded
  | @gone written told sent phase first then_ reports =>
    refine ⟨written, told, sent, hwork, ?_, first, reports, ?_⟩
    · rw [hnews, if_pos phase]
    · rw [phase]
      exact then_

instance decidableIsAway (o : Observer) (depth : Nat) :
    (m : Machine) → (steps : List Step) → Decidable (m.IsAway o depth steps)
  | _, [] => .isTrue trivial
  | m, s :: rest =>
    have := decidableIsAway o depth (m.step o depth s).2 rest
    inferInstanceAs (Decidable (m.session.phase ≠ .disconnected ∧
      IsAway o depth (m.step o depth s).2 rest))

private theorem isAway_append {o : Observer} {first second : List Step} :
    m.IsAway o depth (first ++ second) ↔
      m.IsAway o depth first ∧ (run o depth m first).IsAway o depth second := by
  induction first generalizing m with
  | nil => simp [IsAway, run]
  | cons s rest ih =>
    rw [List.cons_append, IsAway, IsAway, ih, and_assoc]
    rfl

/-- Leaving advances from step to step. -/
theorem departs_run (hbrings : m.Brings work news now) (h : m.Departs now work news)
    (hobserved : now.observed = true) (hstands : now.Stands config False .none) {steps : List Step}
    (hlawful : now.IsLawful .silent depth steps) (haway : now.IsAway .silent depth steps)
    (hclose : .call .close ∉ steps) :
    ∃ work news, m.Brings work news (run .silent depth now steps) ∧
      m.Departs (run .silent depth now steps) work news := by
  induction steps generalizing now work news with
  | nil => exact ⟨work, news, hbrings, h⟩
  | cons s rest ih =>
    rw [List.mem_cons, not_or] at hclose
    have hnext := advances_step depth hobserved hstands h haway.1 hlawful.1
      (Ne.symm hclose.1)
    obtain ⟨more, reports, hmore, hdeparts, -⟩ := hnext.departs
    have hsteady := steady_tell (isSteady_silent config) False.elim depth
    apply ih (hbrings.trans hmore) hdeparts
    · exact hmore.observed.trans hobserved
    · exact (stands_step hsteady hstands hlawful.1 False.elim).runWith
    · exact hlawful.2
    · exact haway.2
    · exact hclose.2

/-- What comes back from asking a session to sign out once more: it says that it does, nothing is
asked for or told, and the session and its sockets stay as they are. -/
def IsDeaf (depth : Nat) (m : Machine) : Prop :=
  let again := m.step .silent depth (.call .signOut)
  again.1 = .answer (some true) ∧ again.2.session = m.session ∧
    (∀ k, again.2.host.phaseOf k = m.host.phaseOf k) ∧ workIn (m.newLines again.2) = [] ∧
    heardIn (m.newLines again.2) = []

private theorem Departs.isDeaf (h : m.Departs now work news)
    (hstands : now.Stands config False .none) :
    now.IsDeaf depth := by
  have hphase : now.session.phase = .disconnected ∨ now.session.phase = .signingOut ∨
      now.session.phase = .signingOutPending ∧ now.session.IsQuiet := by
    by_cases hbusy : now.session.phase = .disconnected
    · exact .inl hbusy
    · obtain ⟨c, -, -, hphase⟩ := h.exists_link hbusy
      exact .inr hphase
  have hreact : Ensures (react (Observer.silent.tell depth) (.call .signOut)) now
      (fun reply after ↦ reply = .answer (some true) ∧ now.Adds [] after ∧
        now.Brings [] [] after ∧ after.session = now.session ∧
        ∀ k, after.host.phaseOf k = now.host.phaseOf k) fun _ ↦ False := by
    simp only [react, perform, ensures_bind, ensures_map, ensures_pure]
    apply (ensures_signOut_again hstands hphase).mono
    · rintro _ after ⟨rfl, hall⟩
      exact ⟨rfl, hall⟩
    · exact fun _ ↦ id
  rcases hreact.runWith_cases with ⟨hreply, hadds, hbrings, hsession, hphases⟩ | ⟨-, hfault⟩
  · exact ⟨hreply, hsession, hphases, hbrings.newLines.1, hadds.heardIn_newLines⟩
  · exact hfault.elim

/-- An observer that is registered stays so. -/
theorem isKept_observed {late : Int → Prop} : IsKept late fun m ↦ m.observed = true where
  note _ _ _ h := h
  close m h := m.observed_reset.trans h
  change tell m m' htell h hchange := by
    cases hchange with
    | fail => exact htell _ _ (m.observed_reset.trans h)
    | giveUp => exact htell _ _ (m.observed_reset.trans h)
    | refuse => exact htell _ _ h
    | dial => exact m.observed_openLinks.trans h
    | dialUnwritten => exact m.observed_openLinks.trans h
    | dialRefused => exact htell _ _ ((observed_reset _).trans (m.observed_openLinks.trans h))
    | quiet => exact m.observed_quiet.trans h
    | signIn =>
      apply htell.announce
      exact h
    | sent => exact htell _ _ h
    | enter => exact htell _ _ h
    | depart => exact htell _ _ h
    | message => exact htell _ _ h
    | observe => rfl
    | _ => exact h

/-- Signing out is orderly. From the call on until the session is over, whatever the network, timers
and callers do but close the session: nothing is asked for but of the command socket; at every
moment, what was asked for and told is what leaving takes, and asking again changes nothing; the
session asks for nothing more in the step in which it is over; and an exchange to sign out that had
to wait begins only in a step in which the exchange that was in flight comes to its end. -/
theorem signOut_isOrderly (config : Config) (policy : Policy) {o : Observer}
    (ho : o.IsSteady config) (depth depth' : Nat) (before later : List Step)
    (hbefore : (fresh config true policy).IsLawful o depth before) :
    let m := run o depth (fresh config true policy) before
    let left := (m.step .silent depth' (.call .signOut)).2
    m.session.phase ≠ .disconnected → left.IsLawful .silent depth' later →
    left.IsAway .silent depth' later → .call .close ∉ later →
    (∀ c ∈ m.session.command, ∀ n ∈ m.session.notify, c.socket ≠ n.socket) ∧
    (left.session.phase = .disconnected → workIn (m.newLines left) = []) ∧
    (∀ done rest, later = done ++ rest →
      m.IsOrderly (run .silent depth' left done) ∧ (run .silent depth' left done).IsDeaf depth') ∧
    ∀ done s rest, later = done ++ s :: rest →
      let now := run .silent depth' left done
      let next := (now.step .silent depth' s).2
      (next.session.phase = .disconnected → workIn (now.newLines next) = []) ∧
      (now.session.phase = .signingOutPending → next.session.phase = .signingOut →
        s.IsEnd now) := by
  intro m left hbusy hlawful haway hclose
  have hobserved : m.observed = true := isKept_observed.run o depth rfl before
  have hstands : m.Stands config False .none :=
    stands_run ho False.elim (stands_fresh config true policy) hbefore False.elim
  have hsteady := steady_tell (isSteady_silent config) False.elim depth'
  have hcall : (Step.call .signOut).IsLawful m := trivial
  have hleft : left.Stands config False .none :=
    (stands_step hsteady hstands hcall False.elim).runWith
  obtain ⟨work, news, hbrings, hdeparts, hfirst⟩ : m.SetsOut left := by
    have hreact : Ensures (react (Observer.silent.tell depth') (.call .signOut)) m
        (fun _ ↦ m.SetsOut) m.SetsOut := by
      simp only [react, perform, ensures_bind, ensures_map, ensures_pure]
      exact (setsOut_signOut (listens_silent depth') hobserved hstands hbusy).of_steady
    exact hreact.runWith
  have hobservedLeft : left.observed = true := hbrings.observed.trans hobserved
  have hmoment {done rest : List Step} (heq : later = done ++ rest) :
      (∃ work news, m.Brings work news (run .silent depth' left done) ∧
        m.Departs (run .silent depth' left done) work news) ∧
      (run .silent depth' left done).Stands config False .none := by
    subst heq
    have hdone := (isLawful_append.1 hlawful).1
    refine ⟨departs_run hbrings hdeparts hobservedLeft hleft hdone (isAway_append.1 haway).1 ?_,
      stands_run (isSteady_silent config) False.elim hleft hdone False.elim⟩
    exact fun hmem ↦ hclose (List.mem_append_left rest hmem)
  refine ⟨?_, fun hover ↦ hbrings.newLines.1.trans (hfirst hover), ?_, ?_⟩
  · intro c hc n hn
    cases hstands with
    | disconnected _ ended => exact absurd ended.phase hbusy
    | resolving _ _ unlinked =>
      cases unlinked with
      | absent command => cases command.symm.trans hc
      | unused _ _ _ links => exact links.apart_of_mem hc hn
    | linked _ _ _ links => exact links.apart_of_mem hc hn
  · intro done rest heq
    obtain ⟨⟨work, news, hbrings, hdeparts⟩, hnow⟩ := hmoment heq
    exact ⟨hdeparts.isOrderly hbrings, hdeparts.isDeaf hnow⟩
  · intro done s rest heq now next
    obtain ⟨⟨work, news, hbrings, hdeparts⟩, hnow⟩ := hmoment heq
    subst heq
    have haway := (isAway_append.1 haway).2.1
    have hlawful := (isLawful_append.1 hlawful).2.1
    have hs : s ≠ .call .close := by
      rintro rfl
      exact hclose (by simp)
    have hnext := advances_step depth' (hbrings.observed.trans hobserved) hnow hdeparts haway
      hlawful hs
    refine ⟨fun hover ↦ ?_, hnext.waits⟩
    obtain ⟨more, reports, hmore, -, hend⟩ := hnext.departs
    exact hmore.newLines.1.trans (hend hover)

/-- A session signs in as peer 7 and relays a payload. -/
def relayed : List Step := [
  .call (.connect (some "10.0.0.5") none none),
  .socket (.newest .command) .connected,
  .socket (.newest .command) (.received (Bytes.ofAscii
    "HTTP/1.1 200 OK\r\nPragma: 7\r\nContent-Length: 6\r\n\r\na,9,1\n")),
  .call (.send 9 "hi")]

/-- What happens once it was asked to sign out: a connection is refused to a caller, signing out is
asked for again, the relay is delivered, and the server closes on the request to sign out. -/
def delivered : List Step := [
  .call (.connect none none none),
  .socket (.newest .command) .connected,
  .call .signOut,
  .socket (.newest .command) (.received (Bytes.ofAscii
    "HTTP/1.1 200 OK\r\nContent-Length: 0\r\n\r\n")),
  .socket (.newest .command) .connected,
  .socket (.newest .command) (.closed 0)]

/-- A session that signs out while it relays a message waits for that exchange first. -/
theorem signOut_isOrderly_relayed :
    let m := run .silent 0 (fresh (Config.standard "alice") true {}) relayed
    let left := (m.step .silent 0 (.call .signOut)).2
    m.session.phase ≠ .disconnected ∧ left.IsLawful .silent 0 delivered ∧
      left.IsAway .silent 0 delivered ∧ .call .close ∉ delivered ∧
      newsIn (m.newLines (run .silent 0 left delivered)) = [.messageSent 0, .disconnected] ∧
      m.IsOrderly (run .silent 0 left delivered) := by
  intro m left
  have hruns : (fresh (Config.standard "alice") true {}).IsLawful .silent 0 relayed ∧
      m.session.phase ≠ .disconnected ∧ left.IsLawful .silent 0 delivered ∧
      left.IsAway .silent 0 delivered ∧ .call .close ∉ delivered ∧
      newsIn (m.newLines (run .silent 0 left delivered)) = [.messageSent 0, .disconnected] := by
    decide +kernel
  obtain ⟨hbefore, hbusy, hlawful, haway, hclose, hnews⟩ := hruns
  have hall := signOut_isOrderly (Config.standard "alice") {} (isSteady_silent _) 0 0 relayed
    delivered hbefore hbusy hlawful haway hclose
  exact ⟨hbusy, hlawful, haway, hclose, hnews, (hall.2.2.1 delivered [] (by simp)).1⟩

end Machine

end Rendezvous
