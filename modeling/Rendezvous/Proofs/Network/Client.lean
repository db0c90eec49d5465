import Rendezvous.Network.Client
import Rendezvous.Proofs.Network.Mirror
import Rendezvous.Proofs.Session.Consistency.Runs
import Rendezvous.Proofs.Session.Proceeding
import Rendezvous.Proofs.Session.Stale
import Rendezvous.Proofs.Session.Restart.Runs

/-!
# A session that is over leaves nothing behind

A session on a network, with an observer that only listens. Whenever the session is disconnected,
every connection that was made has been hung up or lost, no timer is armed, and no lookup is in
flight. Until the next call for a connection nothing changes any more, whatever else is called and
whatever happens on the network; all that can be seen is that the connection of an attempt that was
given up is hung up as soon as it is made.
-/

namespace Rendezvous.Network

open SessionM

namespace Client

/-- Whether a step asks for a connection. -/
def Step.IsConnect : Step → Prop
  | .call (.connect _ _ _) => True
  | _ => False

instance (s : Step) : Decidable s.IsConnect := by
  unfold Step.IsConnect
  split <;> infer_instance

/-- What is seen of a step to a session that is over. -/
def cutOff (c : Client) : Step → List Signal
  | .network (.up k) =>
    if c.network.attempts[k]?.any (·.stage = .pending) then [.hangUp k] else []
  | _ => []

/-! ### A client under watch -/

/-- A client, what was seen of it, and the timers that were set, and have neither fired nor been
taken back since. -/
structure Watch where
  client : Client
  seen : List Signal := []
  armed : List Nat := []

/-- The timers that are armed after something was seen. -/
def arm (armed : List Nat) : Signal → List Nat
  | .timer t _ => t :: armed
  | .timerCancelled t => armed.filter (· ≠ t)
  | _ => armed

/-- The timers that are armed when something happens. -/
def unarm (armed : List Nat) : Step → List Nat
  | .fire t => armed.filter (· ≠ t)
  | _ => armed

namespace Watch

/-- A client that has done nothing yet. -/
def fresh (config : Config) (online : Bool) : Watch := { client := .fresh config online }

/-- One step, with an observer that only listens. -/
def step (depth : Nat) (w : Watch) (s : Step) : Watch :=
  let (_, seen, client) := w.client.step .silent depth s
  { client, seen := w.seen ++ seen, armed := seen.foldl arm (unarm w.armed s) }

/-- Steps in order. -/
def run (depth : Nat) (w : Watch) (steps : List Step) : Watch := steps.foldl (step depth) w

/-- Nothing is left of what a client began: every connection was hung up or lost, no timer is armed,
no lookup is in flight, and nothing is about to start. -/
structure IsQuiet (w : Watch) : Prop where
  hungUp : ∀ k a, w.client.network.attempts[k]? = some a → a.stage = .up → .hangUp k ∈ w.seen
  unarmed : w.armed = []
  disarmed : w.client.machine.session.retry.isArmed = false
  idle : w.client.machine.session.resolver.inFlight = false
  settled : ∀ l ∈ w.client.network.lookups, l.pending = false
  queue : w.client.network.queue = []

/-- What holds of a client and its network between steps. -/
structure Holds (config : Config) (w : Watch) : Prop where
  stands : w.client.machine.Stands config False .none
  queue : w.client.network.queue = []
  mirrors : w.client.network.Mirrors w.client.machine.ledger
  hangsUp : w.client.network.HangsUp w.seen
  armed : ∀ t ∈ w.armed, w.client.machine.session.retry.live = some t

end Watch

/-! ### Timers that are armed -/

variable {n : Network} {l l' : Ledger} {armed : List Nat} {seen : List Signal}

private theorem foldl_arm_startAll (n : Network) (requests : List Request) (armed : List Nat) :
    (n.startAll requests).1.foldl arm armed = armed := by
  induction requests generalizing n with
  | nil => rfl
  | cons r rest ih =>
    refine Eq.trans ?_ (ih (n.start r).2)
    cases r <;> rfl

private theorem foldl_arm_receive (n : Network) (e : Event) (armed : List Nat) :
    (n.receive e).1.seen.foldl arm armed = armed := by
  cases e <;> simp only [receive, attemptEvent, lookupEvent] <;> (repeat' split) <;> rfl

/-- Only the timer that is due is armed. -/
theorem due_of_armed_take {asked : Action} (h : ∀ t ∈ armed, l.due = some t)
    (hturn : l.Turn asked l') : ∀ t ∈ (n.take asked).1.foldl arm armed, l'.due = some t := by
  cases hturn with
  | connect => exact h
  | send k bytes =>
    have hsame : (n.take (.send k bytes)).1.foldl arm armed = armed := by
      simp only [take]
      cases n.current? k <;> rfl
    rw [hsame]
    exact h
  | close k =>
    have hsame : (n.take (.close k)).1.foldl arm armed = armed := by
      simp only [take]
      cases n.current? k <;> rfl
    rw [hsame]
    exact h
  | lookup => exact h
  | cancelLookup => exact h
  | schedule none t delay =>
    intro t' ht'
    rcases List.mem_cons.1 ht' with rfl | ht'
    · rfl
    · cases none.symm.trans (h t' ht')
  | @cancelTimer t live =>
    intro t' ht'
    obtain ⟨ht', hne⟩ := List.mem_filter.1 ht'
    have hsame := Option.some.inj (live.symm.trans (h t' ht'))
    exact absurd hsame.symm (of_decide_eq_true hne)

private theorem due_of_armed_takeAll {asked : List Action} (h : ∀ t ∈ armed, l.due = some t)
    (hturns : l.Turns asked l') :
    ∀ t ∈ (n.takeAll asked).1.foldl arm armed, l'.due = some t := by
  induction hturns generalizing n armed with
  | nil => exact h
  | cons head _ ih =>
    rw [takeAll, List.foldl_append]
    exact ih (due_of_armed_take h head)

/-! ### Steps -/

variable {config : Config} {c : Client} {w : Watch}

/-- The log that a step finds is the log that it adds to. -/
theorem log_struck (m : Machine) (s : Rendezvous.Step) : (m.struck s).host.log = m.host.log := by
  unfold Machine.struck
  split
  · rfl
  · split <;> rfl
  · split <;> rfl
  · rfl

/-- The session takes a step, and the network what is asked for in it. -/
theorem holds_advance {s : Rendezvous.Step} (hstands : c.machine.Stands config False .none)
    (hlawful : s.IsLawful c.machine) (hmirrors : c.network.Mirrors (c.machine.struck s).ledger)
    (hhangsUp : c.network.HangsUp seen)
    (harmed : ∀ t ∈ armed, (c.machine.struck s).session.retry.live = some t) (depth : Nat) :
    Watch.Holds config {
      client := (c.advance .silent depth s).2.2
      seen := seen ++ (c.advance .silent depth s).2.1
      armed := (c.advance .silent depth s).2.1.foldl arm armed } := by
  obtain ⟨new, hlog, hturns⟩ := c.machine.proceeds_step depth s
  rw [log_struck] at hlog
  simp only [advance, absorb, Machine.newLines_of_append hlog]
  have hsettled := (hmirrors.takeAll hturns).settle
  refine ⟨?_, queue_settle _, hsettled, ?_, ?_⟩
  · have htell := SessionM.steady_tell (Machine.isSteady_silent config) False.elim depth
    exact (Machine.stands_step htell hstands hlawful False.elim).runWith
  · have htaken := (hhangsUp.takeAll hmirrors hturns).settle
    rwa [List.append_assoc] at htaken
  · rw [List.foldl_append, Network.settle, foldl_arm_startAll]
    exact due_of_armed_takeAll harmed hturns

/-- What the session counts on once it is told of something. -/
theorem ledger_struck_stepOf {m : Machine} {n : Network} (h : n.Mirrors m.ledger) {e : Event}
    {d : Delivery} (hd : (n.receive e).1.delivery = some d) :
    (m.struck (stepOf d)).ledger = d.after m.ledger ∧ (stepOf d).IsLawful m := by
  cases d with
  | answer host answer => exact ⟨rfl, trivial⟩
  | socket k event =>
    have hpermits : (m.host.phaseOf k).Permits event := h.permits hd
    have hmade : k < m.host.sockets.length := by
      by_contra hnot
      rw [Host.phaseOf_eq_closed_of_le (Nat.le_of_not_lt hnot)] at hpermits
      cases event with
      | connected => cases hpermits
      | received bytes => cases hpermits
      | closed code => exact hpermits rfl
    have hfound : m.find? (.number k) = some k := if_pos hmade
    constructor
    · have hphase := Host.phaseOf_setPhase_eq hmade ((m.host.phaseOf k).after event)
      simp only [stepOf, Machine.struck, hfound, Machine.ledger, hphase]
      rfl
    · intro j hj
      cases hfound.symm.trans hj
      exact hpermits

namespace Watch

/-- What holds between steps holds after the next one. -/
theorem Holds.step (h : w.Holds config) (depth : Nat) (s : Step) :
    (w.step depth s).Holds config := by
  cases s with
  | call call =>
    exact holds_advance (s := .call call) h.stands trivial h.mirrors h.hangsUp h.armed depth
  | fire t =>
    refine holds_advance (s := .fire t) h.stands trivial ?_ h.hangsUp ?_ depth
    · simp only [Machine.struck]
      split
      · exact ⟨h.mirrors.phase, h.mirrors.apart, h.mirrors.looking⟩
      · exact h.mirrors
    · intro t' ht'
      obtain ⟨ht', hne⟩ := List.mem_filter.1 ht'
      have hlive := h.armed t' ht'
      simp only [Machine.struck]
      split
      · next hfired =>
        have hsame := Option.some.inj (hfired.2.symm.trans hlive)
        exact absurd hsame.symm (of_decide_eq_true hne)
      · exact hlive
  | network e =>
    have hmirrors := h.mirrors.receive e
    have hhangsUp := h.hangsUp.receive e
    have hkept := foldl_arm_receive w.client.network e w.armed
    simp only [Watch.step, Client.step, unarm]
    cases hd : (w.client.network.receive e).1.delivery with
    | none =>
      rw [hd] at hmirrors
      have hqueue := (queue_receive w.client.network e).trans h.queue
      refine ⟨h.stands, hqueue, hmirrors, hhangsUp, ?_⟩
      rw [hkept]
      exact h.armed
    | some d =>
      obtain ⟨hledger, hlawful⟩ := ledger_struck_stepOf h.mirrors hd
      rw [hd, Option.elim_some, ← hledger] at hmirrors
      have hlive : (w.client.machine.struck (stepOf d)).session.retry =
          w.client.machine.session.retry := by
        cases d with
        | answer host answer => rfl
        | socket k event =>
          simp only [stepOf, Machine.struck]
          split <;> rfl
      have hnext := holds_advance (c := { w.client with network := (w.client.network.receive e).2 })
        h.stands hlawful hmirrors hhangsUp (hlive ▸ h.armed) depth
      simp only [List.foldl_append, hkept, ← List.append_assoc]
      exact hnext

/-- What holds between steps holds of a client that has done nothing yet. -/
theorem holds_fresh (config : Config) (online : Bool) : (fresh config online).Holds config where
  stands := Machine.stands_fresh config _ _
  queue := rfl
  mirrors := mirrors_fresh _ _ _ _
  hangsUp k a ha := by cases ha
  armed t ht := by cases ht

private theorem Holds.run (h : w.Holds config) (depth : Nat) (steps : List Step) :
    (w.run depth steps).Holds config := by
  induction steps generalizing w with
  | nil => exact h
  | cons s rest ih => exact ih (h.step depth s)

end Watch

/-! ### After the end -/

private theorem live_of_isOver {s : Session} (h : s.IsOver) : s.retry.live = none :=
  Option.isNone_iff_eq_none.1 (Option.isSome_eq_false_iff.1 h.disarmed)

/-- The session is over, and nothing that happens on the network reaches it. -/
structure IsOver (c : Client) : Prop where
  ended : c.machine.session.IsOver
  dead : ∀ (k : Nat) a, c.network.attempts[k]? = some a → a.IsDead
  settled : ∀ l ∈ c.network.lookups, l.pending = false
  queue : c.network.queue = []

/-- Nothing on the network reaches a session that is disconnected. -/
theorem Watch.Holds.isOver (h : w.Holds config)
    (hover : w.client.machine.session.phase = .disconnected) : w.client.IsOver := by
  obtain ⟨hended, -, hclosed⟩ := h.stands.isOver hover
  have hdead : w.client.network.live = [] := by
    refine List.eq_nil_iff_forall_not_mem.2 fun a ha ↦ ?_
    exact h.mirrors.ne_of_closed (hclosed a.socket) a ha rfl
  have hwanted := h.mirrors.wanted_of_idle hended.idle
  refine ⟨hended, fun k a ha ↦ ?_, fun l hl ↦ ?_, h.queue⟩
  · have hnone := List.filter_eq_nil_iff.1 (List.append_eq_nil_iff.1 hdead).1 a
      (List.mem_of_getElem? ha)
    simpa using hnone
  · have hnone := List.filter_eq_nil_iff.1 (List.append_eq_nil_iff.1 hwanted).1 l hl
    simpa using hnone

/-- Nothing is left of a client whose session is over. -/
theorem Watch.Holds.isQuiet (h : w.Holds config) (hover : w.client.IsOver) : w.IsQuiet where
  hungUp k a ha hup := by
    refine h.hangsUp k a ha hup ((hover.dead k a ha).resolve_right ?_)
    simp [hup]
  unarmed := by
    refine List.eq_nil_iff_forall_not_mem.2 fun t ht ↦ ?_
    cases (live_of_isOver hover.ended).symm.trans (h.armed t ht)
  disarmed := hover.ended.disarmed
  idle := hover.ended.idle
  settled := hover.settled
  queue := h.queue

/-! ### What happens on the network -/

/-- Of what happens to a dead attempt it can be seen at most that its connection is hung up. -/
theorem seen_attemptEvent_of_isDead {e : Event} {k : Nat} {a : Attempt}
    (ha : c.network.attempts[k]? = some a) (hdead : a.IsDead) (he : e.attempt? = some k) :
    (c.network.attemptEvent k a e).1.seen = c.cutOff (.network e) := by
  obtain ⟨socket, stage, abandoned⟩ := a
  cases e <;> cases he
  all_goals
    cases stage <;> cases abandoned <;>
      simp_all [attemptEvent, cutOff, Attempt.IsDead, Effect.ignored]

/-- What happens on the network reaches a session that is over no more. -/
theorem IsOver.receive (h : c.IsOver) (e : Event) :
    (c.network.receive e).1.delivery = none ∧
      (c.network.receive e).1.seen = c.cutOff (.network e) ∧
      IsOver { c with network := (c.network.receive e).2 } := by
  cases he : e.attempt? with
  | some k =>
    cases ha : c.network.attempts[k]? with
    | none =>
      rw [receive_of_absent ha he]
      refine ⟨rfl, ?_, h⟩
      cases e <;> cases he <;> simp [cutOff, ha]
    | some a =>
      have hdead := h.dead k a ha
      rw [receive_of_present ha he]
      obtain ⟨hnone, hnext⟩ := attemptEvent_of_isDead c.network k e hdead
      refine ⟨hnone, seen_attemptEvent_of_isDead ha hdead he, ?_⟩
      rcases hnext with hsame | ⟨habandoned, stage, hmoved⟩
      · rw [hsame]
        exact h
      · rw [hmoved]
        refine ⟨h.ended, fun j b hb ↦ ?_, h.settled, h.queue⟩
        obtain ⟨b', hb', rfl⟩ := getElem?_setStage hb
        split
        · next hj =>
          subst hj
          cases hb'.symm.trans ha
          exact .inl habandoned
        · exact h.dead j b' hb'
  | none =>
    obtain ⟨k, hk⟩ : ∃ k, e.lookup? = some k := by cases e <;> cases he <;> exact ⟨_, rfl⟩
    obtain ⟨outcome, hreceive⟩ := receive_of_settled hk fun l hl ↦
      h.settled l (List.mem_of_getElem? hl)
    rw [hreceive]
    refine ⟨rfl, ?_, h⟩
    cases e <;> cases he <;> rfl

/-! ### What is called -/

/-- Whether a request closes a socket. -/
def IsClosing (a : Action) : Prop := ∃ k, a = .close k

/-- What closing leaves of a session that is over: links that were left are closed and taken away,
and without any nothing changes at all. -/
structure Cleared (m m' : Machine) : Prop where
  session : m'.session = { m.session with command := none, notify := none }
  asked : m.host.AsksOnly IsClosing m'.host
  same : m.session.command = none → m.session.notify = none → m' = m

private theorem cleared_reset {m : Machine} (h : m.session.IsOver) : Cleared m m.reset where
  session := by
    obtain ⟨config, observed, ⟨⟨delay, live⟩, p, a, c, i, d, command, notify, ⟨inFlight⟩⟩,
      host⟩ := m
    obtain ⟨rfl, rfl, rfl, hdisarmed, rfl, -⟩ := h
    rw [Machine.session_reset]
    cases Option.isNone_iff_eq_none.1 (Option.isSome_eq_false_iff.1 hdisarmed)
    rfl
  asked := by
    rw [Machine.reset, m.cancelRetry_of_disarmed h.disarmed, m.cancelLookup_of_idle h.idle]
    exact (m.asksOnly_closeCommand fun k ↦ ⟨k, rfl⟩).trans
      (Machine.asksOnly_closeNotify _ fun k ↦ ⟨k, rfl⟩)
  same hcommand hnotify := m.reset_of_isReset ⟨h, hcommand, hnotify⟩

/-- Closing sockets whose attempts are dead cannot be seen. -/
theorem IsOver.takeAll (h : c.IsOver) {machine : Machine} (hover : machine.session.IsOver)
    {asked : List Action} (hasked : ∀ a ∈ asked, IsClosing a) :
    (c.network.takeAll asked).1 = [] ∧ IsOver ⟨machine, (c.network.takeAll asked).2⟩ := by
  induction asked generalizing c with
  | nil => exact ⟨rfl, hover, h.dead, h.settled, h.queue⟩
  | cons a rest ih =>
    obtain ⟨⟨k, rfl⟩, hrest⟩ := List.forall_mem_cons.1 hasked
    have hnone : c.network.current? k = none := by
      rw [current?, List.findIdx?_eq_none_iff]
      intro a ha
      obtain ⟨j, hj⟩ := List.getElem?_of_mem ha
      rcases h.dead j a hj with habandoned | hended
      · simp [habandoned]
      · simp [hended]
    have hnext : IsOver ⟨c.machine, (c.network.withdraw k).abandon k⟩ := by
      refine ⟨h.ended, fun j a ha ↦ ?_, h.settled, ?_⟩
      · simp only [abandon, withdraw, List.getElem?_map, Option.map_eq_some_iff] at ha
        obtain ⟨b, hb, rfl⟩ := ha
        split
        · exact .inl rfl
        · exact h.dead j b hb
      · simp [abandon, withdraw, h.queue]
    obtain ⟨hseen, hlast⟩ := ih hnext hrest
    simp only [Network.takeAll, take, hnone, Option.map_none, Option.toList_none, List.nil_append]
    exact ⟨hseen, hlast⟩

/-- Where nothing is queued nothing is started. -/
theorem settle_of_queue_eq_nil {n : Network} (h : n.queue = []) : n.settle = ([], n) := by
  obtain ⟨family, attempts, lookups, queue⟩ := n
  cases h
  rfl

/-- A session that stays over and only closes sockets in a step is not seen to do anything. -/
theorem IsOver.advance (h : c.IsOver) {s : Rendezvous.Step} {depth : Nat} {m : Machine}
    (hstep : (c.machine.step .silent depth s).2 = m) (hover : m.session.IsOver)
    (hasked : c.machine.host.AsksOnly IsClosing m.host) :
    (c.advance .silent depth s).2.1 = [] ∧ (c.advance .silent depth s).2.2.machine = m ∧
      (c.advance .silent depth s).2.2.IsOver := by
  obtain ⟨asked, hlog, hclosings⟩ := hasked
  have hnew : Host.actions (c.machine.newLines m) = asked.reverse := by
    rw [Machine.newLines_of_append hlog]
    simp [Host.actions, ← List.map_reverse, List.filterMap_map]
  have hreversed : ∀ a ∈ asked.reverse, IsClosing a := fun a ha ↦
    hclosings a (List.mem_reverse.1 ha)
  obtain ⟨hseen, hlast⟩ := h.takeAll hover hreversed
  have hsettled := settle_of_queue_eq_nil hlast.queue
  simp only [Client.advance, hstep, hnew, absorb, hseen, hsettled]
  exact ⟨rfl, trivial, hlast⟩

/-- A session that is over turns calls down, but that it can be closed. -/
theorem step_call_of_over {m : Machine} (h : m.session.IsOver) {call : Call}
    (hcall : ¬ Step.IsConnect (.call call)) (depth : Nat) :
    (m.step .silent depth (.call call)).2 = if call = .close then m.reset else m := by
  refine Ensures.runWith (P := fun after ↦ after = if call = .close then m.reset else m) ?_
  simp only [Machine.react, ensures_bind, ensures_pure]
  cases call with
  | connect => exact absurd trivial hcall
  | send peer text => simp [perform, sendTo, ensures_ite, h.phase]
  | sendBytes peer payload => simp [perform, sendTo, ensures_ite, h.phase]
  | hangUp peer => simp [perform, sendTo, ensures_ite, h.phase]
  | signOut => simp [perform, signOut, ensures_ite, h.phase]
  | close => simp [perform]

/-- A step that asks for no connection changes nothing in a session that is over, but that links
that were left are gone once it is closed. -/
theorem IsOver.step (h : c.IsOver) {s : Step} (hs : ¬ s.IsConnect) (depth : Nat) :
    (c.step .silent depth s).2.2.machine =
        (if s = .call .close then c.machine.reset else c.machine) ∧
      (c.step .silent depth s).2.1 = c.cutOff s ∧ (c.step .silent depth s).2.2.IsOver := by
  have hadvance {s : Rendezvous.Step} (hsame : (c.machine.step .silent depth s).2 = c.machine) :=
    h.advance hsame h.ended (.refl _)
  cases s with
  | call call =>
    have hstep := step_call_of_over h.ended hs depth
    simp only [Step.call.injEq]
    split at hstep
    · next hclose =>
      rw [if_pos hclose]
      obtain ⟨hseen, hmachine, hnext⟩ := h.advance hstep c.machine.isReset_reset.toIsOver
        (cleared_reset h.ended).asked
      exact ⟨hmachine, hseen, hnext⟩
    · next hnot =>
      rw [if_neg hnot]
      obtain ⟨hseen, hmachine, hnext⟩ := hadvance hstep
      exact ⟨hmachine, hseen, hnext⟩
  | fire t =>
    have hsame : (c.machine.step .silent depth (.fire t)).2 = c.machine := by
      rcases Nat.lt_or_ge t c.machine.host.timers with hset | hunset
      · have hstale : c.machine.session.retry.live ≠ some t := fun hlive ↦ by
          cases (live_of_isOver h.ended).symm.trans hlive
        rw [Machine.step_fire_of_not_live hset hstale]
      · refine Ensures.runWith (P := fun after ↦ after = c.machine) ?_
        simp only [Machine.react, ensures_bind, ensures_get, ensures_ite, ensures_pure]
        exact ⟨fun hset ↦ absurd hset (Nat.not_lt_of_le hunset), fun _ ↦ trivial⟩
    obtain ⟨hseen, hmachine, hnext⟩ := hadvance hsame
    exact ⟨hmachine, hseen, hnext⟩
  | network e =>
    obtain ⟨hnone, hseen, hover⟩ := h.receive e
    simp only [Client.step, hnone]
    exact ⟨(if_neg (by simp)).symm, hseen, hover⟩

namespace Watch

/-- Until a connection is asked for, a session that is over stays as it is, but that links that were
left are gone once it is closed. -/
theorem isOver_run (h : w.client.IsOver) (depth : Nat) {later : List Step}
    (hlater : ∀ s ∈ later, ¬ s.IsConnect) :
    (w.run depth later).client.IsOver ∧ (w.run depth later).client.machine =
      if .call .close ∈ later then w.client.machine.reset else w.client.machine := by
  induction later generalizing w with
  | nil => exact ⟨h, rfl⟩
  | cons s rest ih =>
    obtain ⟨hs, hrest⟩ := List.forall_mem_cons.1 hlater
    obtain ⟨hsame, -, hover⟩ := h.step hs depth
    obtain ⟨hover', hsame'⟩ := ih (w := w.step depth s) hover hrest
    refine ⟨hover', hsame'.trans ?_⟩
    have hagain := Machine.reset_of_isReset _ w.client.machine.isReset_reset
    have hmachine : (w.step depth s).client.machine = _ := hsame
    rw [hmachine]
    by_cases hclose : s = .call .close
    · simp [hclose, hagain]
    · simp [hclose, Ne.symm hclose]

/-- Whenever a session is disconnected, every connection that was made has been hung up or lost, no
timer is armed and no lookup is in flight. Until a connection is asked for, nothing that is called
and nothing that happens changes the session or adds to its log, but that links that were left are
gone once it is closed; and nothing is seen but that the connection of an attempt that was given up
is hung up as soon as it is made. -/
theorem quiet_of_disconnected (config : Config) (online : Bool) (depth : Nat)
    {steps later : List Step}
    (hover : ((fresh config online).run depth steps).client.machine.session.phase = .disconnected)
    (hlater : ∀ s ∈ later, ¬ s.IsConnect) :
    let w := (fresh config online).run depth steps
    let w' := w.run depth later
    let m := w.client.machine
    w.IsQuiet ∧ w'.IsQuiet ∧ Cleared m m.reset ∧
      w'.client.machine = (if .call .close ∈ later then m.reset else m) ∧
      ∀ s, ¬ s.IsConnect →
        (w'.client.step .silent depth s).2.2.machine =
            (if s = .call .close then m.reset else w'.client.machine) ∧
          (w'.client.step .silent depth s).2.1 = w'.client.cutOff s := by
  intro w w' m
  have hholds : w.Holds config := (holds_fresh config online).run depth steps
  have hw : w.client.IsOver := hholds.isOver hover
  obtain ⟨hw', hsame⟩ := isOver_run hw depth hlater
  refine ⟨hholds.isQuiet hw, (hholds.run depth later).isQuiet hw', cleared_reset hw.ended, hsame,
    fun s hs ↦ ?_⟩
  obtain ⟨hstep, hseen, -⟩ := hw'.step hs depth
  refine ⟨hstep.trans ?_, hseen⟩
  have hagain := Machine.reset_of_isReset _ m.isReset_reset
  have hmachine : w'.client.machine = m ∨ w'.client.machine = m.reset := by
    rw [hsame]
    split
    · exact .inr rfl
    · exact .inl rfl
  rcases hmachine with hmachine | hmachine <;> rw [hmachine]
  rw [hagain]

/-- The server refuses the first attempt, and the retry starts another one, which is pending when
the session is closed. -/
def closedWhilePending : Watch := (fresh (Config.standard "alice") true).run 0 [
  .call (.connect (some "10.0.0.5") none none),
  .network (.fail 0 .refused),
  .fire 0,
  .call .close]

/-- The connection of the second attempt comes up later, and is hung up at once. -/
theorem quiet_of_disconnected_closedWhilePending :
    closedWhilePending.client.machine.session.phase = .disconnected ∧
      closedWhilePending.IsQuiet ∧ (closedWhilePending.run 0 [.call .signOut, .fire 0]).IsQuiet ∧
      ((closedWhilePending.run 0 [.call .signOut, .fire 0]).client.step .silent 0
        (.network (.up 1))).2.1 = [.hangUp 1] := by
  have hover : closedWhilePending.client.machine.session.phase = .disconnected := by
    decide +kernel
  have hlater : ∀ s ∈ [.call .signOut, Step.fire 0], ¬ s.IsConnect := by decide
  have hpending : (closedWhilePending.run 0 [.call .signOut, .fire 0]).client.network.attempts[1]?
      |>.any (·.stage = .pending) := by
    decide +kernel
  obtain ⟨hquiet, hquiet', -, -, hstep⟩ :=
    quiet_of_disconnected (Config.standard "alice") true 0 hover hlater
  have hcut : (closedWhilePending.run 0 [.call .signOut, .fire 0]).client.cutOff
      (.network (.up 1)) = [.hangUp 1] := by
    rw [cutOff, if_pos hpending]
  exact ⟨hover, hquiet, hquiet', (hstep (.network (.up 1)) id).2.trans hcut⟩

end Watch

end Client

end Rendezvous.Network
