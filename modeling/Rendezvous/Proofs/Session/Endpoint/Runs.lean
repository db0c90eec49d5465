import Rendezvous.Proofs.Session.Endpoint.Signals

/-!
# The endpoint of an episode is fixed

Every step of a run keeps the session tied to the aim of the episode, so that everything a session
dials from a granted call to connect until it is disconnected, be it a retry, a relay, the long poll
or signing out, is dialled at one address. A call that is refused has no part in it: it leaves the
whole machine as it is.
-/

namespace Rendezvous

open SessionM Machine

/-- The address that a step hands over to a session: the answer to the lookup in flight, or an
answer that comes late, which a session that waits for one takes for its own. -/
def Step.answers (m : Machine) : Step → List Bearing
  | .answer (some ip) => if m.session.resolver.inFlight then [.answered ip] else []
  | .lateAnswer (some ip) => [.answered ip]
  | _ => []

namespace Machine

/-- What bore on where a session dials, over a run and after what was before. -/
def courseFrom (o : Observer) (depth : Nat) : Machine → List Bearing → List Step → List Bearing
  | _, past, [] => past
  | m, past, s :: rest =>
    let out := m.step o depth s
    courseFrom o depth out.2
      (Course.courseAt m (s.answers m ++ past) (s.noted out.1 out.2)) rest

/-- What bore on where a session dials, over a run. -/
def course (o : Observer) (depth : Nat) (m : Machine) (steps : List Step) : List Bearing :=
  m.courseFrom o depth [] steps

end Machine

namespace Course

variable {config : Config} {start m : Machine} {past : List Bearing} {address : Address}
  {tell : Event → SessionM Unit} {o : Observer} {depth : Nat}

/-! ### Answers to lookups -/

/-- A session between two steps, after everything that bore on it so far. -/
structure Rests (config : Config) (past : List Bearing) (m : Machine) : Prop where
  settings : m.config = config
  guided : IsGuided config none past
  ties : m.session.Ties (aim? config past)

/-- Where a step begins, the list is as it was. -/
theorem Rests.tied (h : Rests config past m) (hlog : m.host.log = start.host.log) :
    Tied config start past m where
  settings := h.settings
  grows := ⟨[], hlog⟩
  guided := by
    rw [courseAt_self hlog]
    exact h.guided
  ties := by
    rw [aimAt?, courseAt_self hlog]
    exact h.ties

/-- What was learnt of the server is dialled where the session waits for it, and changes nothing
anywhere else. -/
theorem tied_resolved {ip : String}
    (htell : Machine.Keeps (Tied config start (.answered ip :: past)) tell)
    (h : Rests config past m) (hlog : m.host.log = start.host.log) :
    Ensures (SessionM.react tell (.resolved ip)) m
      (fun _ ↦ Tied config start (.answered ip :: past))
      (Tied config start (.answered ip :: past)) := by
  have hguided : IsGuided config none (.answered ip :: past) :=
    h.guided.cons rfl fun k address hdial ↦ by cases hdial
  by_cases hphase : m.session.phase = .resolving
  · rw [SessionM.react, ensures_bind, ensures_phase, hphase]
    simp only [ensures_bind, ensures_remember, ensures_discard]
    have hmoved : Guided config start (.answered ip :: past) { m with session :=
        { m.session with address := { m.session.address with host := ip } } } := by
      refine ⟨h.settings, ⟨[], hlog⟩, ?_⟩
      rw [courseAt_self (by exact hlog)]
      exact hguided
    by_cases hname : m.session.clientName.string?.isSome
    · obtain ⟨a, haim, hneeds, hnone, haddress⟩ := h.ties.looking hphase hname
      refine tied_dial htell hmoved ?_ fun hnot ↦ absurd hname hnot
      rw [aimAt?, courseAt_self (by exact hlog), aim?, haim, haddress]
      exact Aim.address?_learn_of_named hneeds hnone ip
    · have htied : Tied config start (.answered ip :: past) { m with session :=
          { m.session with address := { m.session.address with host := ip } } } :=
        ⟨hmoved, h.ties.idle, fun _ hnamed ↦ absurd hnamed hname,
          fun _ hresolved ↦ absurd hphase hresolved⟩
      apply (ensures_dial_unwritten (by exact hname)).mono
      · exact fun _ _ ↦ False.elim
      · rintro _ rfl
        exact htied.dialUnwritten
  · have hlearnt : Rests config (.answered ip :: past) m :=
      ⟨h.settings, hguided, h.ties.learn hphase ip⟩
    exact tied_react htell (hlearnt.tied hlog) fun hresolving ↦ absurd hresolving hphase

/-- An answer to a lookup, with what it hands over. -/
theorem tied_onAnswer (htell : ∀ past, Machine.Keeps (Tied config start past) tell)
    (h : Rests config past m) (hlog : m.host.log = start.host.log) (ip : Option String) :
    Ensures (onAnswer tell ip) m
      (fun _ ↦ Tied config start (ip.toList.map .answered ++ past))
      (Tied config start (ip.toList.map .answered ++ past)) := by
  cases ip with
  | none => exact tied_react (htell past) (h.tied hlog) (by simp)
  | some ip => exact tied_resolved (htell _) h hlog

/-! ### Steps -/

private theorem tied_step (htell : ∀ past, Machine.Keeps (Tied config m past) tell)
    (h : Rests config past m) (s : Step) :
    Ensures (Machine.react tell s) m
      (fun reply after ↦ Tied config m (s.answers m ++ past) (s.noted reply after))
      (Tied config m (s.answers m ++ past)) := by
  have hsame : Tied config m past m := h.tied rfl
  have hgrant {after : Machine} (hconfig : after.config = m.config)
      (hlog : after.host.log = m.host.log) (hsession : after.session = m.session) :
      Tied config m past after :=
    hsame.rest hconfig ⟨[], hlog, by simp⟩ fun _ hties ↦ hsession ▸ hties
  cases s with
  | call c =>
    simp only [Machine.react, ensures_bind, ensures_pure]
    exact tied_perform (htell past) hsame c
  | observe =>
    simp only [Machine.react, ensures_bind, ensures_get, ensures_ite, ensures_throw,
      ensures_modify, ensures_pure]
    exact ⟨fun _ ↦ hsame, fun _ ↦ hsame.rest rfl (.refl _) fun _ ↦ id⟩
  | answer ip =>
    simp only [Machine.react, onLookup, ensures_bind, ensures_get, ensures_ite, ensures_remember,
      ensures_pure]
    constructor
    · intro hinFlight
      have hidle : Rests config past
          { m with session := { m.session with resolver := .idle } } :=
        ⟨h.settings, h.guided, h.ties.congr rfl rfl rfl rfl id⟩
      have hanswers : (Step.answer ip).answers m = ip.toList.map .answered := by
        cases ip with
        | none => rfl
        | some ip => exact if_pos hinFlight
      rw [hanswers]
      exact tied_onAnswer htell hidle rfl ip
    · intro hidle
      have hanswers : (Step.answer ip).answers m = [] := by
        cases ip with
        | none => rfl
        | some ip => exact if_neg hidle
      rw [hanswers]
      exact hsame
  | lateAnswer ip =>
    have hanswers : (Step.lateAnswer ip).answers m = ip.toList.map .answered := by
      cases ip <;> rfl
    simp only [Machine.react, ensures_bind, ensures_pure]
    rw [hanswers]
    exact tied_onAnswer htell h rfl ip
  | fire timer =>
    simp only [Machine.react, ensures_bind, ensures_get, ensures_ite, ensures_pure]
    exact ⟨fun _ ↦ tied_onTimer (htell past) hsame timer, fun _ ↦ hsame⟩
  | socket ref event =>
    simp only [Machine.react, ensures_bind, ensures_get]
    cases m.find? ref with
    | none => exact ensures_pure.2 hsame
    | some socket =>
      simp only [ensures_bind, ensures_pure]
      exact tied_onSocket (htell past) hsame socket event
  | accept role granted =>
    simp only [Machine.react, ensures_bind, ensures_modify, ensures_pure]
    exact hgrant rfl rfl rfl
  | sendable role granted =>
    simp only [Machine.react, ensures_bind, ensures_modify, ensures_pure]
    exact hgrant rfl rfl rfl
  | resolvable granted =>
    simp only [Machine.react, ensures_bind, ensures_modify, ensures_pure]
    exact hgrant rfl rfl rfl

/-- A step leaves the session tied to its aim, with the answer to its call noted. -/
theorem Rests.noted (h : Rests config past m) (o : Observer) (depth : Nat) (s : Step) :
    Tied config m (s.answers m ++ past)
      (s.noted (m.step o depth s).1 (m.step o depth s).2) := by
  rcases (tied_step (fun past ↦ keeps_tell o depth) h s).runWith_cases with
    hended | ⟨⟨f, hfault⟩, hended⟩
  · exact hended
  · rw [show (m.step o depth s).1 = .fault f from hfault]
    cases s <;> exact hended

private theorem Rests.step (h : Rests config past m) (s : Step) :
    Rests config (courseAt m (s.answers m ++ past)
      (s.noted (m.step o depth s).1 (m.step o depth s).2)) (m.step o depth s).2 := by
  have hnoted := h.noted o depth s
  have hsettings : (m.step o depth s).2.config = config := by
    rw [← hnoted.settings]
    cases s <;> cases (m.step o depth _).1 <;> rfl
  refine ⟨hsettings, hnoted.guided, ?_⟩
  have hties := hnoted.ties
  rwa [Record.session_noted] at hties

private theorem Rests.run (h : Rests config past m) (steps : List Step) :
    Rests config (m.courseFrom o depth past steps) (m.run o depth steps) := by
  induction steps generalizing m past with
  | nil => exact h
  | cons s rest ih => exact ih (h.step s)

/-- The list leaves out no line of the log. -/
theorem Rests.logged (h : Rests config past m) (hlogged : ∀ l ∈ m.host.log, .line l ∈ past)
    (steps : List Step) : ∀ l ∈ (m.run o depth steps).host.log,
      .line l ∈ m.courseFrom o depth past steps := by
  induction steps generalizing m past with
  | nil => exact hlogged
  | cons s rest ih =>
    refine ih (h.step s) fun l hl ↦ ?_
    have hnoted : l ∈ (s.noted (m.step o depth s).1 (m.step o depth s).2).host.log := by
      cases s <;> cases (m.step o depth _).1 <;> first | exact hl | exact List.mem_cons_of_mem _ hl
    obtain ⟨new, hnew⟩ := (h.noted o depth s).grows
    rw [hnew] at hnoted
    rw [courseAt, newLines_of_append hnew]
    rcases List.mem_append.1 hnoted with hnow | hbefore
    · exact List.mem_append_left _ (List.mem_map_of_mem hnow)
    · exact List.mem_append_right _ (List.mem_append_right _ (hlogged l hbefore))

private theorem rests_fresh (config : Config) (observed : Bool) (policy : Policy) :
    Rests config [] (fresh config observed policy) :=
  ⟨rfl, trivial, Session.IsOver.ties ⟨rfl, rfl, rfl, rfl, rfl, rfl⟩⟩

/-! ### One address for an episode -/

/-- What an episode is headed for stays so while no other is begun. -/
theorem heads_append {later : List Bearing} (hlater : ∀ x ∈ later, x.settles? config = none)
    (h : (aim? config past).bind Aim.address? = some address) :
    (aim? config (later ++ past)).bind Aim.address? = some address := by
  induction later with
  | nil => exact h
  | cons x later ih =>
    have hrest := ih fun y hy ↦ hlater y (List.mem_cons_of_mem x hy)
    cases x with
    | answered ip =>
      obtain ⟨a, haim, haddress⟩ := Option.bind_eq_some_iff.1 hrest
      rw [List.cons_append, aim?, haim]
      exact Aim.address?_learn haddress ip
    | line l =>
      rw [List.cons_append, aim?_of_not_settles (hlater _ List.mem_cons_self)]
      exact hrest

/-- Two sockets are dialled at one address if no other episode is begun between them. The note that
is next to either may be that of the call which dialled it. -/
theorem IsGuided.unique {later between : List Bearing} {j k : Nat} {other : Address}
    (h : IsGuided config none (later ++ .dial j address :: (between ++ .dial k other :: past)))
    (hsame : ∀ x ∈ later.getLast?.toList ++ between.dropLast, x.settles? config = none) :
    address = other := by
  have hlater := h.of_append
  have hearlier := hlater.2.of_append.1 k other rfl
  rw [List.forall_mem_append] at hsame
  have hheads : (aim? config (between ++ .dial k other :: past)).bind Aim.address? =
      some other := by
    rcases List.eq_nil_or_concat between with rfl | ⟨mid, x, rfl⟩
    · exact hearlier
    · rw [List.concat_eq_append, List.dropLast_concat] at hsame
      rw [List.concat_eq_append, List.getLast?_concat, Option.some_or] at hearlier
      rw [List.concat_eq_append, List.append_assoc]
      apply heads_append hsame.2
      cases x with
      | answered ip =>
        have hfree : ∀ x ∈ [Bearing.answered ip], x.settles? config = none := by
          simp [Bearing.settles?]
        exact heads_append hfree hearlier
      | line l => exact hearlier
  have hdialled := hlater.1 j address rfl
  rw [Option.or_none, aimAmid?_of_not_settles fun x hx ↦ hsame.1 x (by simpa using hx),
    hheads] at hdialled
  exact (Option.some.inj hdialled).symm

end Course

open Course

/-- A socket is dialled nowhere but where its episode is headed: at the server that was asked for if
it is written out as an address, at the address that was handed over for it otherwise, and at the
port that was asked for or the default. So all that a session dials in one episode is dialled at one
address. A call to connect that is refused comes to a report of that and to nothing else, and a call
to relay that is refused comes to nothing at all, whatever state the session is in. -/
theorem Machine.endpoint_fixed (config : Config) (observed : Bool) (policy : Policy) (o : Observer)
    (depth : Nat) (steps : List Step) :
    let first := fresh config observed policy
    let course := first.course o depth steps
    (∀ l ∈ (first.run o depth steps).host.log, .line l ∈ course) ∧
      (∀ later past k address, course = later ++ .dial k address :: past →
        (aimAmid? config later.getLast? past).bind Aim.address? = some address) ∧
      (∀ later between past j k address other,
        course = later ++ .dial j address :: (between ++ .dial k other :: past) →
        (∀ x ∈ later.getLast?.toList ++ between.dropLast, x.settles? config = none) →
        address = other) ∧
      ∀ (m : Machine) (tell : Event → SessionM Unit),
        (∀ server port name, (m.session.phase ≠ .disconnected ∨ server.getD m.config.server = "" ∨
            (name.getD m.config.clientName).isEmpty) →
          perform tell (.connect server port name) m =
            (do tell .connectionFailure; return some false) m) ∧
        ∀ c peer, Call.relayee? c = some peer →
          (m.session.phase ≠ .connected ∨ peer < 0 ∨ m.session.exchange? ≠ none) →
          (perform tell c m).2 = m ∧ ((perform tell c m).1 = .ok (some false) ∨
            ¬ Numeral.IsWritable peer ∧ ∃ f, (perform tell c m).1 = .error f) := by
  intro first course
  have hstart : Rests config [] first := rests_fresh config observed policy
  have hguided : IsGuided config none course := (hstart.run steps).guided
  refine ⟨hstart.logged (by simp [first, fresh]) steps, ?_, ?_, fun m tell ↦ ⟨?_, ?_⟩⟩
  · intro later past k address hcourse
    rw [hcourse] at hguided
    have hdialled := hguided.of_append.1 k address rfl
    rwa [Option.or_none] at hdialled
  · intro later between past j k address other hcourse hsame
    rw [hcourse] at hguided
    exact hguided.unique hsame
  · intro server port name hrefused
    exact perform_connect_of_refused hrefused port
  · intro c peer hc hrefused
    exact perform_relay_of_refused hc hrefused

/-- A named server that refuses once and then signs the session in. -/
def lookedUpOnce : List Step := [
  .call (.connect (some "rendezvous") (some 0) none),
  .call (.connect (some "10.0.0.7") none none),
  .answer (some "10.0.0.5"),
  .socket (.newest .command) (.closed Channel.refusedCode),
  .fire 0,
  .call (.connect (some "10.0.0.8") none none)]

/-- The calls that overlap are refused, and the retry goes where the first attempt went. -/
example : (Host.actions ((Machine.fresh (Config.standard "alice") true {}).run .silent 0
      lookedUpOnce).host.log).filterMap
    (fun | .connect _ address => some address | _ => none) =
      [⟨"10.0.0.5", 8888⟩, ⟨"10.0.0.5", 8888⟩] := by
  decide +kernel

end Rendezvous
