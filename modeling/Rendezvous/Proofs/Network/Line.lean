import Rendezvous.Network.Line
import Rendezvous.Proofs.Network.Basic

/-!
# A channel tells of its latest connection only

What takes place at a channel is written down moment by moment: the calls of its owner, the attempts
that start, what happens to attempts on the network, and what the owner is told. From the moments
alone one can read what became of the connection that was asked for last. The owner is told of that
connection, and of no other; the phase and the answers to calls are those of that connection too.
-/

namespace Rendezvous.Network

/-- Whether no attempt but the given one can bring its channel anything. -/
def Lives (n : Network) (live : Option Nat) : Prop :=
  ∀ k a, n.attempts[k]? = some a → a.IsDead ∨ live = some k

namespace Line

/-! ### Moments -/

/-- Something that takes place at a channel. -/
inductive Mark where
  /-- The owner makes a call, and the network sees something of it at once. -/
  | asked (c : ChannelCall) (a : ChannelAnswer) (seen : List Signal)
  /-- An attempt at a connection starts. -/
  | began (attempt : Nat) (address : Address)
  /-- Something happens on the network, and the network sees to some of it by itself. -/
  | befell (e : Event) (seen : List Signal)
  /-- The owner is told of an event. -/
  | told (e : Channel.Event)

/-- Something that takes place, and the phase that the channel is in right after it. -/
structure Moment where
  mark : Mark
  phase : Channel.Phase

/-- What became of the connection that was asked for last: there is none, or it was closed, failed
or lost; its attempt has not started, is pending, or has its connection. -/
inductive Hold where
  | none
  | wanted (address : Address)
  | pending (attempt : Nat)
  | up (attempt : Nat)

/-- The phase of a channel with such a connection. -/
def Hold.phase : Hold → Channel.Phase
  | .none => .closed
  | .wanted _ => .connecting
  | .pending _ => .connecting
  | .up _ => .connected

/-- The attempt of such a connection. -/
def Hold.attempt? : Hold → Option Nat
  | .none => Option.none
  | .wanted _ => Option.none
  | .pending n => some n
  | .up n => some n

/-- What the owner has to be told when something happens on the network. -/
def Hold.tells : Hold → Event → Option Channel.Event
  | .pending n, .up k => if k = n then some .connected else Option.none
  | .pending n, .fail k ending => if k = n then some (.closed ending.code) else Option.none
  | .up n, .data k bytes => if k = n then some (.received bytes) else Option.none
  | .up n, .lost k ending => if k = n then some (.closed ending.code) else Option.none
  | _, _ => Option.none

/-- What has become of the connection after something took place. -/
def Hold.after (h : Hold) : Mark → Hold
  | .asked (.connect address) (.accepted true) _ => .wanted address
  | .asked .close _ _ => .none
  | .began n _ => .pending n
  | .befell e _ => match h, h.tells e with
    | .pending n, some .connected => .up n
    | _, some (.closed _) => .none
    | h, _ => h
  | _ => h

/-- What has become of the connection that was asked for last, newest moment first. -/
def hold : List Moment → Hold
  | [] => .none
  | x :: past => (hold past).after x.mark

/-- What the owner has still to be told of. -/
def owed : List Moment → Option Channel.Event
  | ⟨.befell e _, _⟩ :: past => (hold past).tells e
  | _ => none

/-- Whether an attempt has started. -/
def HasBegun (n : Nat) (past : List Moment) : Prop :=
  ∃ x ∈ past, ∃ address, x.mark = .began n address

/-- Whether a moment is right, given those before it, newest first. -/
structure Moment.Fits (owned online : Bool) (past : List Moment) (x : Moment) : Prop where
  /-- The channel is in the phase of the connection that was asked for last. -/
  phase : x.phase = (hold (x :: past)).phase
  /-- The owner is told of that connection, of all that happens to it, and at once. -/
  told : ∀ e, x.mark = .told e ↔ owned = true ∧ owed past = some e
  /-- A connection is granted just where there is none. -/
  connect : ∀ address a seen, x.mark = .asked (.connect address) a seen →
    a = .accepted (online && decide ((hold past).phase = .closed)) ∧ seen = []
  /-- Bytes go to the connection, and nowhere if there is none. -/
  send : ∀ bytes a seen, x.mark = .asked (.send bytes) a seen →
    (∃ n, hold past = .up n ∧ a = .sent (some bytes.length) ∧ seen = [.write n bytes]) ∨
      ((hold past).phase ≠ .connected ∧ a = .sent none ∧ seen = [])
  /-- Every attempt is at the connection asked for, and is a new one. -/
  began : ∀ n address, x.mark = .began n address → hold past = .wanted address ∧ ¬ HasBegun n past

/-- Whether every moment is right. -/
def AllFit (owned online : Bool) : List Moment → Prop
  | [] => True
  | x :: past => x.Fits owned online past ∧ AllFit owned online past

/-! ### What takes place in a step -/

/-- The attempts that start. -/
def started (seen : List Signal) (phase : Channel.Phase) : List Moment :=
  seen.reverse.filterMap fun
    | .connect n address => some ⟨.began n address, phase⟩
    | _ => none

/-- What takes place in calls that are made in order, newest moment first. -/
def callMoments (l : Line) : List ChannelCall → List Moment
  | [] => []
  | c :: rest =>
    let (answer, seen, l) := l.call c
    l.callMoments rest ++ [⟨.asked c answer seen, l.phase⟩]

/-- What takes place in a step, newest moment first. -/
def moments (owner : Owner) (l : Line) : Step → List Moment
  | .call c =>
    let (answer, seen, l) := l.call c
    started l.settle.1 l.phase ++ [⟨.asked c answer seen, l.phase⟩]
  | .network e =>
    let (effect, network) := l.network.receive e
    match effect.delivery with
    | some (.socket _ event) =>
      let l := { l with network, phase := l.phase.after event }
      if l.owned then
        let last := (l.callAll (owner event)).2.2
        started last.settle.1 last.phase ++ l.callMoments (owner event) ++
          [⟨.told event, l.phase⟩, ⟨.befell e effect.seen, l.phase⟩]
      else started l.settle.1 l.phase ++ [⟨.befell e effect.seen, l.phase⟩]
    | _ => [⟨.befell e effect.seen, l.phase⟩]

/-- What the owner sees of something that takes place. -/
def Mark.entry? : Mark → Option LineEntry
  | .asked c a _ => some (.called c a)
  | .told e => some (.heard e)
  | .began _ _ => none
  | .befell _ _ => none

/-- What the network sees of something that takes place. -/
def Mark.seen : Mark → List Signal
  | .asked _ _ seen => seen
  | .began n address => [.connect n address]
  | .befell _ seen => seen
  | .told _ => []

/-- What the owner sees of moments, oldest first. -/
def entriesOf (moments : List Moment) : List LineEntry :=
  moments.reverse.filterMap (·.mark.entry?)

/-- What the network sees of moments, oldest first. -/
def seenOf (moments : List Moment) : List Signal := moments.reverse.flatMap (·.mark.seen)

/-- What the owner sees in a step, its own call among it. -/
def Result.entriesOf (r : Result) : Step → List LineEntry
  | .call c => match r.reply with
    | .call a => .called c a :: r.entries
    | .network _ => r.entries
  | .network _ => r.entries

/-- A channel after steps, each with what its owner does when it is told of an event in it. -/
def run (l : Line) (steps : List (Owner × Step)) : Line :=
  steps.foldl (fun l s ↦ (l.step s.1 s.2).2) l

/-- What takes place in steps, newest moment first. -/
def story (l : Line) : List (Owner × Step) → List Moment
  | [] => []
  | (owner, s) :: rest => (l.step owner s).2.story rest ++ l.moments owner s

/-! ### The network of a channel -/

/-- A channel as the connection that was asked for last leaves it. -/
inductive Rests (l : Line) : Hold → Prop where
  | none (phase : l.phase = .closed) (queue : l.network.queue = [])
      (live : Lives l.network Option.none) : Rests l .none
  | wanted (phase : l.phase = .connecting) {address : Address}
      (queue : l.network.queue = [.dial 0 address]) (live : Lives l.network Option.none) :
      Rests l (.wanted address)
  | pending (phase : l.phase = .connecting) (queue : l.network.queue = []) {n : Nat}
      (attempt : l.network.attempts[n]? = some { socket := 0 })
      (live : Lives l.network (some n)) : Rests l (.pending n)
  | up (phase : l.phase = .connected) (queue : l.network.queue = []) {n : Nat}
      (attempt : l.network.attempts[n]? = some { socket := 0, stage := .up })
      (live : Lives l.network (some n)) : Rests l (.up n)

variable {l : Line} {h : Hold} {network : Network} {live : Option Nat} {n : Nat}

/-- The phase of a channel is that of its hold. -/
theorem Rests.phase_eq (hl : l.Rests h) : l.phase = h.phase := by
  cases hl <;> assumption

private theorem Rests.of_closed (hl : l.Rests h) (hphase : l.phase = .closed) :
    l.network.queue = [] ∧ Lives l.network Option.none := by
  cases hl with
  | none _ queue live => exact ⟨queue, live⟩
  | wanted phase => cases hphase.symm.trans phase
  | pending phase => cases hphase.symm.trans phase
  | up phase => cases hphase.symm.trans phase

/-- A connected channel is on the connection that was asked for last. -/
theorem Rests.of_connected (hl : l.Rests h) (hphase : l.phase = .connected) :
    ∃ n, h = .up n ∧ l.network.attempts[n]? = some { socket := 0, stage := .up } ∧
      Lives l.network (some n) := by
  cases hl with
  | none phase => cases hphase.symm.trans phase
  | wanted phase => cases hphase.symm.trans phase
  | pending phase => cases hphase.symm.trans phase
  | @up _ _ n attempt live => exact ⟨n, rfl, attempt, live⟩

private theorem current?_eq_some (hup : network.attempts[n]? = some { socket := 0, stage := .up })
    (hlive : Lives network (some n)) : network.current? 0 = some n := by
  rw [current?, List.findIdx?_eq_some_iff_getElem]
  obtain ⟨hn, hget⟩ := List.getElem?_eq_some_iff.1 hup
  refine ⟨hn, by simp [hget], fun k hk ↦ ?_⟩
  rcases hlive k _ (List.getElem?_eq_getElem (Nat.lt_trans hk hn)) with (habandoned | hover) | heq
  · simp [habandoned]
  · simp [hover]
  · cases heq
    exact absurd hk (Nat.lt_irrefl _)

/-- Once the attempts of the channel are given up, none is alive. -/
theorem lives_abandon (hlive : Lives network live)
    (hown : ∀ k ∈ live, ∃ a, network.attempts[k]? = some a ∧ a.socket = 0) :
    Lives (network.abandon 0) none := by
  intro k a ha
  left
  simp only [abandon, List.getElem?_map, Option.map_eq_some_iff] at ha
  obtain ⟨b, hb, rfl⟩ := ha
  rcases hlive k b hb with (habandoned | hover) | heq
  · left
    split <;> simp [habandoned]
  · right
    split <;> simp [hover]
  · obtain ⟨c, hc, hsocket⟩ := hown k heq
    cases hc.symm.trans hb
    left
    simp [hsocket]

/-- An attempt that starts when none is alive is the only one. -/
theorem lives_started (hlive : Lives network none) :
    Lives { network with attempts := network.attempts ++ [{ socket := 0 }], queue := [] }
      (some network.attempts.length) := by
  intro k a ha
  rcases Nat.lt_or_ge k network.attempts.length with hk | hk
  · refine .inl ((hlive k a ?_).resolve_right (by simp))
    simpa [List.getElem?_append_left hk] using ha
  · obtain ⟨hlt, -⟩ := List.getElem?_eq_some_iff.1 ha
    have hk : k = network.attempts.length := by
      simp only [List.length_append, List.length_singleton] at hlt
      omega
    exact .inr (congrArg some hk.symm)

/-- Closing leaves no connection, whatever there was. -/
theorem rests_close (hl : l.Rests h) :
    ({ l with phase := .closed, network := (l.network.withdraw 0).abandon 0 } : Line).Rests
      .none := by
  have hgone {live : Option Nat} (hlive : Lives l.network live)
      (hown : ∀ k ∈ live, ∃ a, l.network.attempts[k]? = some a ∧ a.socket = 0) :
      Lives ((l.network.withdraw 0).abandon 0) none := by
    apply lives_abandon
    · exact hlive
    · exact hown
  cases hl with
  | none _ queue live => exact .none rfl (by simp [abandon, withdraw, queue]) (hgone live (by simp))
  | wanted _ queue live =>
    exact .none rfl (by simp [abandon, withdraw, queue]) (hgone live (by simp))
  | pending _ queue attempt live =>
    refine .none rfl (by simp [abandon, withdraw, queue]) (hgone live ?_)
    rintro _ ⟨⟩
    exact ⟨_, attempt, rfl⟩
  | up _ queue attempt live =>
    refine .none rfl (by simp [abandon, withdraw, queue]) (hgone live ?_)
    rintro _ ⟨⟩
    exact ⟨_, attempt, rfl⟩

/-- A call leaves the channel as it leaves the connection. -/
theorem Rests.call (hl : l.Rests h) (c : ChannelCall) :
    (l.call c).2.2.Rests (h.after (.asked c (l.call c).1 (l.call c).2.1)) := by
  cases c with
  | connect address =>
    by_cases hdial : l.phase.canDial l.online = true
    · have hcall : l.call (.connect address) = (.accepted true, [], { l with
          phase := .connecting
          network := { l.network with queue := l.network.queue ++ [.dial 0 address] } }) := by
        simp [Line.call, hdial, ask, take]
      obtain ⟨hclosed, -⟩ : l.phase = .closed ∧ l.online = true := by
        simpa [Channel.Phase.canDial] using hdial
      obtain ⟨hqueue, hlive⟩ := hl.of_closed hclosed
      rw [hcall]
      refine .wanted rfl ?_ hlive
      rw [hqueue, List.nil_append]
    · have hcall : l.call (.connect address) = (.accepted false, [], l) := by
        simp [Line.call, hdial]
      rw [hcall]
      exact hl
  | send bytes =>
    have hsame : (l.call (.send bytes)).2.2 = l := by
      simp only [Line.call]
      split <;> rfl
    rw [hsame]
    exact hl
  | close =>
    have hclosed := rests_close hl
    exact hclosed

/-- Where nothing is about to start, nothing does. -/
theorem settle_eq_self (hqueue : l.network.queue = []) : l.settle = ([], l) := by
  simp only [Line.settle, Network.settle, hqueue, Network.startAll]
  rw [← hqueue]

/-- The attempt that is wanted starts. -/
theorem Rests.settle_of_wanted {address : Address} (hl : l.Rests (.wanted address)) :
    l.settle.1 = [.connect l.network.attempts.length address] ∧
      l.settle.2.network.attempts = l.network.attempts ++ [{ socket := 0 }] ∧
      l.settle.2.Rests (.pending l.network.attempts.length) := by
  cases hl with
  | wanted phase queue live =>
    have hsettle : l.settle = ([.connect l.network.attempts.length address], { l with
        network := { l.network with
          attempts := l.network.attempts ++ [{ socket := 0 }], queue := [] } }) := by
      simp [Line.settle, Network.settle, queue, Network.startAll, Network.start]
    rw [hsettle]
    refine ⟨rfl, rfl, .pending ?_ rfl (by simp) (lives_started live)⟩
    exact phase

/-! ### Right moments -/

/-- A channel with its story so far: every moment is right, and the channel is as the connection
that was asked for last leaves it. -/
structure Told (owned online : Bool) (past : List Moment) (l : Line) : Prop where
  isOwned : l.owned = owned
  isOnline : l.online = online
  rests : l.Rests (hold past)
  begun : ∀ n, HasBegun n past ↔ n < l.network.attempts.length
  paid : owned = true → owed past = none
  fits : AllFit owned online past

variable {owned online : Bool} {past : List Moment} {x : Moment}

/-- An attempt has begun at the newest moment or before. -/
theorem hasBegun_cons :
    HasBegun n (x :: past) ↔ (∃ address, x.mark = .began n address) ∨ HasBegun n past := by
  simp [HasBegun]

private theorem Told.not_owed (hl : Told owned online past l) (e : Channel.Event) :
    ¬ (owned = true ∧ owed past = some e) := by
  rintro ⟨howned, howed⟩
  cases (hl.paid howned).symm.trans howed

/-- A call by the owner. -/
theorem Told.asked (hl : Told owned online past l) {c : ChannelCall} {a : ChannelAnswer}
    {seen : List Signal} {l' : Line} (hx : x = ⟨.asked c a seen, l'.phase⟩)
    (howned : l'.owned = l.owned) (honline : l'.online = l.online)
    (hlength : l'.network.attempts.length = l.network.attempts.length)
    (hrests : l'.Rests (hold (x :: past)))
    (hconnect : ∀ address, c = .connect address →
      a = .accepted (online && decide ((hold past).phase = .closed)) ∧ seen = [])
    (hsend : ∀ bytes, c = .send bytes →
      (∃ n, hold past = .up n ∧ a = .sent (some bytes.length) ∧ seen = [.write n bytes]) ∨
        ((hold past).phase ≠ .connected ∧ a = .sent none ∧ seen = [])) :
    Told owned online (x :: past) l' := by
  subst hx
  refine ⟨howned.trans hl.isOwned, honline.trans hl.isOnline, hrests, fun n ↦ ?_, fun _ ↦ rfl,
    ⟨hrests.phase_eq, fun e ↦ ?_, ?_, ?_, by simp⟩, hl.fits⟩
  · rw [hasBegun_cons, hl.begun, hlength]
    simp
  · exact iff_of_false (by simp) (hl.not_owed e)
  · rintro address _ _ ⟨⟩
    exact hconnect address rfl
  · rintro bytes _ _ ⟨⟩
    exact hsend bytes rfl

private theorem Told.call (hl : Told owned online past l) (c : ChannelCall) :
    Told owned online
      (⟨.asked c (l.call c).1 (l.call c).2.1, (l.call c).2.2.phase⟩ :: past) (l.call c).2.2 := by
  have hphase := hl.rests.phase_eq
  have hrests := hl.rests.call c
  cases c with
  | connect address =>
    by_cases hdial : l.phase.canDial l.online = true
    · have hcall : l.call (.connect address) = (.accepted true, [], { l with
          phase := .connecting
          network := { l.network with queue := l.network.queue ++ [.dial 0 address] } }) := by
        simp [Line.call, hdial, ask, take]
      obtain ⟨hclosed, honline⟩ : l.phase = .closed ∧ l.online = true := by
        simpa [Channel.Phase.canDial] using hdial
      rw [hcall] at hrests ⊢
      refine hl.asked rfl rfl rfl rfl hrests ?_ (by simp)
      rintro _ -
      simp [← hphase, hclosed, ← hl.isOnline, honline]
    · have hcall : l.call (.connect address) = (.accepted false, [], l) := by
        simp [Line.call, hdial]
      rw [hcall] at hrests ⊢
      refine hl.asked rfl rfl rfl rfl hrests ?_ (by simp)
      have hrefused : (l.online && decide (l.phase = .closed)) = false := by
        rw [Bool.and_comm]
        exact Bool.eq_false_iff.2 hdial
      rintro _ -
      rw [← hphase, ← hl.isOnline, hrefused]
      exact ⟨rfl, rfl⟩
  | send bytes =>
    by_cases hconnected : l.phase = .connected
    · obtain ⟨n, hhold, hup, hlive⟩ := hl.rests.of_connected hconnected
      have hcall : l.call (.send bytes) = (.sent (some bytes.length), [.write n bytes], l) := by
        simp only [Line.call, Channel.Phase.canSend, hconnected, ask, take,
          current?_eq_some hup hlive]
        simp [← hconnected]
      rw [hcall] at hrests ⊢
      refine hl.asked rfl rfl rfl rfl hrests (by simp) ?_
      rintro _ ⟨⟩
      exact .inl ⟨n, hhold, rfl, rfl⟩
    · have hcall : l.call (.send bytes) = (.sent none, [], l) := by
        simp [Line.call, Channel.Phase.canSend, hconnected]
      rw [hcall] at hrests ⊢
      refine hl.asked rfl rfl rfl rfl hrests (by simp) ?_
      rintro _ -
      exact .inr ⟨hphase ▸ hconnected, rfl, rfl⟩
  | close =>
    have hlength : (l.call .close).2.2.network.attempts.length = l.network.attempts.length := by
      simp [Line.call, ask, take, abandon, withdraw]
    exact hl.asked rfl rfl rfl hlength hrests (by simp) (by simp)

private theorem Told.callAll (hl : Told owned online past l) (cs : List ChannelCall) :
    Told owned online (l.callMoments cs ++ past) (l.callAll cs).2.2 := by
  induction cs generalizing l past with
  | nil => exact hl
  | cons c rest ih =>
    simpa [callMoments, Line.callAll] using ih (hl.call c)

/-- When a call is over, the attempt that it asked for starts. -/
theorem Told.settle (hl : Told owned online past l) :
    Told owned online (started l.settle.1 l.phase ++ past) l.settle.2 := by
  have hidle (hqueue : l.network.queue = []) :
      Told owned online (started l.settle.1 l.phase ++ past) l.settle.2 := by
    rw [settle_eq_self hqueue]
    exact hl
  have hrests := hl.rests
  generalize hh : hold past = h at hrests
  have hbefore := hrests
  cases hrests with
  | none _ queue => exact hidle queue
  | pending _ queue => exact hidle queue
  | up _ queue => exact hidle queue
  | @wanted phase address queue live =>
    let number := l.network.attempts.length
    obtain ⟨hseen, hattempts, hrests⟩ := hbefore.settle_of_wanted
    have hstarted : started l.settle.1 l.phase = [⟨.began number address, l.phase⟩] := by
      rw [hseen]
      rfl
    rw [hstarted]
    refine ⟨hl.isOwned, hl.isOnline, hrests, fun n ↦ ?_, fun _ ↦ rfl,
      ⟨phase, fun e ↦ ?_, by simp, by simp, ?_⟩, hl.fits⟩
    · have hlength : l.settle.2.network.attempts.length = number + 1 := by
        simp [hattempts, number]
      have hbegan : (∃ a, Mark.began number address = .began n a) ↔ n = number := by
        simp [eq_comm]
      rw [List.singleton_append, hasBegun_cons, hl.begun, hlength]
      exact (or_congr_left hbegan).trans (or_comm.trans Nat.lt_succ_iff_lt_or_eq.symm)
    · exact iff_of_false (by simp) (hl.not_owed e)
    · rintro n _ ⟨⟩
      exact ⟨hh, fun hbegun ↦ Nat.lt_irrefl _ ((hl.begun number).1 hbegun)⟩

/-! ### Events of the network -/

variable {e : Event} {a : Attempt} {seen : List Signal}

/-- An event that tells the channel nothing leaves its hold. -/
theorem Hold.after_befell_eq_self (htells : h.tells e = Option.none) (seen : List Signal) :
    h.after (.befell e seen) = h := by
  cases h <;> simp [Hold.after, htells]

private theorem Rests.lives (hl : l.Rests h) : Lives l.network h.attempt? := by
  cases hl <;> assumption

/-- Only the attempt of the connection matters to a channel. -/
theorem Rests.congr (hl : l.Rests h) (hqueue : network.queue = l.network.queue)
    (hlive : Lives network h.attempt?)
    (hattempt : ∀ n ∈ h.attempt?, network.attempts[n]? = l.network.attempts[n]?) :
    ({ l with network } : Line).Rests h := by
  cases hl with
  | none phase queue =>
    refine .none ?_ (hqueue.trans queue) hlive
    exact phase
  | wanted phase queue =>
    refine .wanted ?_ (hqueue.trans queue) hlive
    exact phase
  | pending phase queue attempt =>
    refine .pending ?_ (hqueue.trans queue) ((hattempt _ rfl).trans attempt) hlive
    exact phase
  | up phase queue attempt =>
    refine .up ?_ (hqueue.trans queue) ((hattempt _ rfl).trans attempt) hlive
    exact phase

/-- What a dead attempt comes to leaves it dead. -/
theorem lives_setStage (hlive : Lives network live) (ha : network.attempts[n]? = some a)
    (habandoned : a.abandoned = true) (stage : Stage) : Lives (network.setStage n stage) live := by
  intro k b hb
  obtain ⟨c, hc, rfl⟩ := getElem?_setStage hb
  split
  · subst n
    cases ha.symm.trans hc
    exact .inl (.inl habandoned)
  · exact hlive k c hc

/-- The attempt that is alive stays the only one, as far as it comes. -/
theorem lives_setStage_self (hlive : Lives network (some n)) (stage : Stage) :
    Lives (network.setStage n stage) (some n) := by
  intro k b hb
  obtain ⟨c, hc, rfl⟩ := getElem?_setStage hb
  split
  · exact .inr (by simp [*])
  · exact hlive k c hc

/-- Once the attempt that is alive has come to its end, none is. -/
theorem lives_setStage_over (hlive : Lives network (some n)) :
    Lives (network.setStage n .over) none := by
  intro k b hb
  obtain ⟨c, hc, rfl⟩ := getElem?_setStage hb
  split
  · exact .inl (.inr rfl)
  · exact .inl ((hlive k c hc).resolve_right (by simp [*]))

private theorem Rests.not_isDead (hl : l.Rests h) (hn : h.attempt? = some n)
    (ha : l.network.attempts[n]? = some a) : ¬ a.IsDead := by
  cases hl <;> cases hn
  all_goals
    cases ha.symm.trans ‹_›
    simp [Attempt.IsDead]

/-- What cannot happen to the attempt of the connection does not. -/
theorem Rests.receive_of_ignored (hl : l.Rests h) (htells : h.tells e = Option.none)
    (hn : h.attempt? = some n) (he : e.attempt? = some n) :
    l.network.receive e = (.ignored, l.network) := by
  cases hl <;> cases hn <;> cases e <;> cases he <;> simp [Hold.tells] at htells
  all_goals simp [receive, attemptEvent, *]

/-- What is not told leaves the channel as it is. -/
theorem Rests.receive_of_silent (hl : l.Rests h) (htells : h.tells e = Option.none) :
    (∀ s event, (l.network.receive e).1.delivery ≠ some (.socket s event)) ∧
      (l.network.receive e).2.attempts.length = l.network.attempts.length ∧
      ({ l with network := (l.network.receive e).2 } : Line).Rests h := by
  rcases receive_cases l.network e with ⟨hdelivery, hqueue, hattempts⟩ | ⟨n, a, ha, he, hreceive⟩
  · refine ⟨hdelivery, congrArg _ hattempts, hl.congr hqueue ?_ fun n _ ↦ by rw [hattempts]⟩
    exact fun k a ha ↦ hl.lives k a (hattempts ▸ ha)
  · rcases hl.lives n a ha with hdead | halive
    · have hne (k) (hk : k ∈ h.attempt?) : n ≠ k := by
        rintro rfl
        exact hl.not_isDead hk ha hdead
      rw [hreceive]
      obtain ⟨hdelivery, heq | ⟨habandoned, stage, heq⟩⟩ :=
        attemptEvent_of_isDead l.network n e hdead
      · rw [heq]
        exact ⟨by simp [hdelivery], rfl, hl⟩
      · rw [heq]
        refine ⟨by simp [hdelivery], by simp [setStage], hl.congr rfl
          (lives_setStage hl.lives ha habandoned stage) fun k hk ↦ ?_⟩
        simp [setStage, hne k hk]
    · rw [hl.receive_of_ignored htells halive he]
      exact ⟨by simp [Effect.ignored], rfl, hl⟩

/-- What happens to the attempt of the connection is told, and the channel goes along with it. -/
theorem Rests.receive_of_told {event : Channel.Event} (hl : l.Rests h)
    (htells : h.tells e = some event) (hanswered : ∀ n, e ≠ .fail n .foreign)
    (seen : List Signal) :
    (l.network.receive e).1.delivery = some (.socket 0 event) ∧
      (l.network.receive e).2.attempts.length = l.network.attempts.length ∧
      ({ l with
        phase := l.phase.after event
        network := (l.network.receive e).2 } : Line).Rests (h.after (.befell e seen)) := by
  cases hl with
  | none => simp [Hold.tells] at htells
  | wanted => simp [Hold.tells] at htells
  | @pending _ queue n attempt live =>
    cases e with
    | up k =>
      obtain ⟨rfl, rfl⟩ : k = n ∧ Channel.Event.connected = event := by
        simpa [Hold.tells] using htells
      have hreceive : l.network.receive (.up k) =
          (⟨.done, [], some (.socket 0 .connected)⟩, l.network.setStage k .up) := by
        simp [receive, attempt, attemptEvent]
      rw [hreceive]
      refine ⟨rfl, by simp [setStage], ?_⟩
      simp only [Hold.after, htells]
      refine .up ?_ ?_ ?_ (lives_setStage_self live .up)
      · rfl
      · exact queue
      · simp [setStage, attempt]
    | fail k ending =>
      obtain ⟨rfl, rfl⟩ : k = n ∧ Channel.Event.closed ending.code = event := by
        simpa [Hold.tells] using htells
      have hreceive : l.network.receive (.fail k ending) =
          (⟨.done, [], some (.socket 0 (.closed ending.code))⟩, l.network.setStage k .over) := by
        have hending : ending ≠ .foreign := fun heq ↦ hanswered k (heq ▸ rfl)
        simp [receive, attempt, attemptEvent, hending]
      rw [hreceive]
      refine ⟨rfl, by simp [setStage], ?_⟩
      simp only [Hold.after, htells]
      exact .none rfl queue (lives_setStage_over live)
    | _ => simp [Hold.tells] at htells
  | @up _ queue n attempt live =>
    cases e with
    | data k bytes =>
      obtain ⟨rfl, rfl⟩ : k = n ∧ Channel.Event.received bytes = event := by
        simpa [Hold.tells] using htells
      have hreceive : l.network.receive (.data k bytes) =
          (⟨.done, [], some (.socket 0 (.received bytes))⟩, l.network) := by
        simp [receive, attempt, attemptEvent]
      rw [hreceive]
      refine ⟨rfl, rfl, ?_⟩
      simp only [Hold.after, htells]
      exact .up ‹_› queue attempt live
    | lost k ending =>
      obtain ⟨rfl, rfl⟩ : k = n ∧ Channel.Event.closed ending.code = event := by
        simpa [Hold.tells] using htells
      have hreceive : l.network.receive (.lost k ending) =
          (⟨.done, [], some (.socket 0 (.closed ending.code))⟩, l.network.setStage k .over) := by
        simp [receive, attempt, attemptEvent]
      rw [hreceive]
      refine ⟨rfl, by simp [setStage], ?_⟩
      simp only [Hold.after, htells]
      exact .none rfl queue (lives_setStage_over live)
    | _ => simp [Hold.tells] at htells

private theorem Told.begun_iff (hl : Told owned online past l) {l' : Line}
    (hlength : l'.network.attempts.length = l.network.attempts.length) (n : Nat) :
    HasBegun n (⟨.befell e seen, l'.phase⟩ :: past) ↔ n < l'.network.attempts.length := by
  rw [hasBegun_cons, hl.begun, hlength]
  simp

/-- What happens on the network is right if the channel is then as its connection leaves it. -/
theorem Told.fits_befell (hl : Told owned online past l) {l' : Line}
    (hrests : l'.Rests ((hold past).after (.befell e seen))) :
    AllFit owned online (⟨.befell e seen, l'.phase⟩ :: past) :=
  ⟨⟨hrests.phase_eq, fun event ↦ iff_of_false (by simp) (hl.not_owed event), by simp, by simp,
    by simp⟩, hl.fits⟩

/-- Something happens that is not told. -/
theorem Told.befell (hl : Told owned online past l) {l' : Line}
    (hrests : l'.Rests ((hold past).after (.befell e seen))) (howned : l'.owned = l.owned)
    (honline : l'.online = l.online)
    (hlength : l'.network.attempts.length = l.network.attempts.length)
    (hpaid : owned = true → (hold past).tells e = Option.none) :
    Told owned online (⟨.befell e seen, l'.phase⟩ :: past) l' :=
  ⟨howned.trans hl.isOwned, honline.trans hl.isOnline, hrests, hl.begun_iff hlength, hpaid,
    hl.fits_befell hrests⟩

/-- Something happens that the owner is told of. -/
theorem Told.told (hl : Told true online past l) {l' : Line} {event : Channel.Event}
    (hrests : l'.Rests ((hold past).after (.befell e seen))) (howned : l'.owned = l.owned)
    (honline : l'.online = l.online)
    (hlength : l'.network.attempts.length = l.network.attempts.length)
    (htells : (hold past).tells e = some event) :
    Told true online (⟨.told event, l'.phase⟩ :: ⟨.befell e seen, l'.phase⟩ :: past) l' := by
  refine ⟨howned.trans hl.isOwned, honline.trans hl.isOnline, hrests, fun n ↦ ?_, fun _ ↦ rfl,
    ⟨hrests.phase_eq, fun _ ↦ ?_, by simp, by simp, by simp⟩, hl.fits_befell hrests⟩
  · rw [hasBegun_cons, hl.begun_iff hlength]
    simp
  · simp [owed, htells]

/-- Whether something happens that a channel has an answer to: no attempt fails by an error that
does not come from the operating system. -/
def Step.IsAnswered (s : Step) : Prop := ∀ n, s ≠ .network (.fail n .foreign)

private theorem Told.step (hl : Told owned online past l) (owner : Owner) {s : Step}
    (hs : s.IsAnswered) : Told owned online (l.moments owner s ++ past) (l.step owner s).2 := by
  cases s with
  | call c => simpa [moments, Line.step] using (hl.call c).settle
  | network e =>
    cases htells : (hold past).tells e with
    | none =>
      obtain ⟨hdelivery, hlength, hrests⟩ := hl.rests.receive_of_silent htells
      rw [← Hold.after_befell_eq_self htells (l.network.receive e).1.seen] at hrests
      have hlast := hl.befell hrests rfl rfl hlength fun _ ↦ htells
      simp only [moments, Line.step]
      exact hlast
    | some event =>
      obtain ⟨hdelivery, hlength, hrests⟩ :=
        hl.rests.receive_of_told htells (fun n heq ↦ hs n (heq ▸ rfl)) (l.network.receive e).1.seen
      cases owned with
      | true =>
        have hlast := ((hl.told hrests rfl rfl hlength htells).callAll (owner event)).settle
        simp only [moments, Line.step, hear, hdelivery]
        rw [if_pos hl.isOwned, if_pos hl.isOwned, List.append_assoc, List.append_assoc]
        exact hlast
      | false =>
        have hlast := (hl.befell hrests rfl rfl hlength (by simp)).settle
        have hunowned : ¬ l.owned = true := by simp [hl.isOwned]
        simp only [moments, Line.step, hear, hdelivery]
        rw [if_neg hunowned, if_neg hunowned, List.append_assoc]
        exact hlast

/-! ### What moments show -/

section Shows

variable (later : List Moment)

@[simp]
private theorem entriesOf_append :
    entriesOf (later ++ past) = entriesOf past ++ entriesOf later := by
  simp [entriesOf]

@[simp]
private theorem seenOf_append : seenOf (later ++ past) = seenOf past ++ seenOf later := by
  simp [seenOf]

private theorem entriesOf_started (seen : List Signal) (phase : Channel.Phase) :
    entriesOf (started seen phase) = [] := by
  simp only [entriesOf, started, ← List.filterMap_reverse, List.reverse_reverse,
    List.filterMap_filterMap, List.filterMap_eq_nil_iff]
  intro s _
  cases s <;> rfl

private theorem Rests.seenOf_started (hl : l.Rests h) (phase : Channel.Phase) :
    seenOf (started l.settle.1 phase) = l.settle.1 := by
  cases hl with
  | none _ queue => simp [Line.settle, Network.settle, queue, startAll, started, seenOf]
  | wanted _ queue =>
    simp [Line.settle, Network.settle, queue, startAll, Network.start, started, seenOf, Mark.seen]
  | pending _ queue => simp [Line.settle, Network.settle, queue, startAll, started, seenOf]
  | up _ queue => simp [Line.settle, Network.settle, queue, startAll, started, seenOf]

private theorem entriesOf_callMoments (l : Line) (cs : List ChannelCall) :
    entriesOf (l.callMoments cs) = (l.callAll cs).1 := by
  induction cs generalizing l with
  | nil => rfl
  | cons c rest ih =>
    simp only [callMoments, entriesOf_append, ih, Line.callAll]
    rfl

private theorem seenOf_callMoments (l : Line) (cs : List ChannelCall) :
    seenOf (l.callMoments cs) = (l.callAll cs).2.1 := by
  induction cs generalizing l with
  | nil => rfl
  | cons c rest ih =>
    simp only [callMoments, seenOf_append, ih, Line.callAll]
    simp [seenOf, Mark.seen]

end Shows

/-- The moments of a step are those that its result shows. -/
theorem Told.shows (hl : Told owned online past l) (owner : Owner) {s : Step} (hs : s.IsAnswered) :
    entriesOf (l.moments owner s) = (l.step owner s).1.entriesOf s ∧
      seenOf (l.moments owner s) = (l.step owner s).1.seen := by
  cases s with
  | call c =>
    simp only [moments, Line.step, entriesOf_append, seenOf_append, entriesOf_started,
      (hl.call c).rests.seenOf_started]
    simp [entriesOf, Mark.entry?, seenOf, Mark.seen, Result.entriesOf]
  | network e =>
    cases htells : (hold past).tells e with
    | none =>
      obtain ⟨hdelivery, -, -⟩ := hl.rests.receive_of_silent htells
      simp only [moments, Line.step]
      simp [entriesOf, Mark.entry?, seenOf, Mark.seen, Result.entriesOf]
    | some event =>
      obtain ⟨hdelivery, hlength, hrests⟩ :=
        hl.rests.receive_of_told htells (fun n heq ↦ hs n (heq ▸ rfl)) (l.network.receive e).1.seen
      cases owned with
      | true =>
        have hlast := (hl.told hrests rfl rfl hlength htells).callAll (owner event)
        simp only [moments, Line.step, hear, hdelivery]
        rw [if_pos hl.isOwned, if_pos hl.isOwned]
        simp only [entriesOf_append, seenOf_append, entriesOf_started, hlast.rests.seenOf_started,
          entriesOf_callMoments, seenOf_callMoments]
        simp [entriesOf, Mark.entry?, seenOf, Mark.seen, Result.entriesOf]
      | false =>
        have hunowned : ¬ l.owned = true := by simp [hl.isOwned]
        simp only [moments, Line.step, hear, hdelivery]
        rw [if_neg hunowned, if_neg hunowned]
        simp only [entriesOf_append, seenOf_append, entriesOf_started, hrests.seenOf_started]
        simp [entriesOf, Mark.entry?, seenOf, Mark.seen, Result.entriesOf]

/-! ### Runs -/

/-- Every moment of a run is right, as long as connections fail in ways that are answered. -/
theorem Told.run (hl : Told owned online past l) {steps : List (Owner × Step)}
    (hs : ∀ s ∈ steps, s.2.IsAnswered) :
    Told owned online (l.story steps ++ past) (l.run steps) := by
  induction steps generalizing l past with
  | nil => exact hl
  | cons s rest ih =>
    obtain ⟨hfirst, hrest⟩ := List.forall_mem_cons.1 hs
    have hlast := ih (hl.step s.1 hfirst) hrest
    rwa [← List.append_assoc] at hlast

/-- Nothing has happened to a channel that is fresh. -/
theorem told_fresh (name : String) (owned online : Bool) :
    Told owned online [] { name, owned, online } :=
  ⟨rfl, rfl, .none rfl rfl (by simp [Lives]), by simp [HasBegun], fun _ ↦ rfl, trivial⟩

end Line

end Rendezvous.Network
