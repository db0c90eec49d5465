import Rendezvous.Proofs.Network.Attempts

/-!
# Every attempt of a channel comes to something

A connect that is granted starts an attempt, unless the owner closes the channel first. The attempt
is under way until it comes to its end or is given up, and what it comes to is told exactly once.
There is one exception: of an attempt that fails by an error that does not come from the operating
system nothing is told, and the channel stays connecting until it is closed.
-/

namespace Rendezvous.Network

/-! ### How far an attempt has come -/

/-- How far an attempt has come. One that has not started has come as far as one that is pending. -/
def age (n : Network) (k : Nat) : Nat := (n.attempts[k]?).elim 0 (·.stage.rank)

private theorem age_take (n : Network) (a : Action) (k : Nat) : (n.take a).2.age k = n.age k := by
  cases a with
  | close socket =>
    simp only [take, age, abandon, withdraw, List.getElem?_map]
    cases n.attempts[k]? with
    | none => rfl
    | some b =>
      simp only [Option.map_some, Option.elim_some]
      split <;> rfl
  | _ => rfl

private theorem age_start (n : Network) (r : Request) (k : Nat) :
    (n.start r).2.age k = n.age k := by
  cases r with
  | lookup host port => rfl
  | dial socket address =>
    simp only [Network.start, age]
    rcases Nat.lt_trichotomy k n.attempts.length with hk | rfl | hk
    · rw [List.getElem?_append_left hk]
    · simp [Stage.rank]
    · have hlate : (n.attempts ++ [({ socket } : Attempt)]).length ≤ k := by
        rw [List.length_append]
        exact hk
      rw [List.getElem?_eq_none hlate, List.getElem?_eq_none (Nat.le_of_lt hk)]

private theorem age_startAll (n : Network) (requests : List Request) (k : Nat) :
    (n.startAll requests).2.age k = n.age k := by
  induction requests generalizing n with
  | nil => rfl
  | cons r rest ih => exact (ih _).trans (age_start n r k)

private theorem age_settle (n : Network) (k : Nat) :
    n.settle.2.age k = n.age k := age_startAll _ _ k

variable {n : Network} {k : Nat} {e : Event} {a : Attempt} {stage : Stage}

private theorem age_setStage (ha : n.attempts[k]? = some a) (stage : Stage) (j : Nat) :
    (n.setStage k stage).age j = if k = j then stage.rank else n.age j := by
  simp only [age, setStage, List.getElem?_modify]
  split
  · subst j
    simp [ha]
  · simp

private theorem age_le_setStage (ha : n.attempts[k]? = some a) (h : a.stage.rank ≤ stage.rank)
    (j : Nat) :
    n.age j ≤ (n.setStage k stage).age j := by
  rw [age_setStage ha]
  split
  · subst j
    simpa [age, ha] using h
  · exact Nat.le_refl _

private theorem Stage.rank_le (stage : Stage) : stage.rank ≤ Stage.over.rank := by
  cases stage <;> decide

/-- What a socket has of an attempt takes the attempt to its connection or to its end. -/
theorem Stage.rank_after {event : Channel.Event} (h : stage.phase.Permits event) :
    stage.rank ≤ (stage.after event).rank ∧ stage.rank < 2 ∧ 1 ≤ (stage.after event).rank ∧
      (event = .connected → stage.rank = 0) := by
  cases stage <;> cases event <;> simp_all [Channel.Phase.Permits, Stage.phase, Stage.rank,
    Stage.after]

/-- No attempt ever goes back, and what reaches its socket takes it further: a connection one that
was pending, anything else one that is not over. -/
theorem age_receive (n : Network) (e : Event) (k : Nat) :
    n.age k ≤ (n.receive e).2.age k ∧
      ∀ s event, (n.receive e).1.delivery = some (.socket s event) → e.attempt? = some k →
        n.age k < 2 ∧ 1 ≤ (n.receive e).2.age k ∧ (event = .connected → n.age k = 0) := by
  rcases receive_cases n e with ⟨hdelivery, -, hattempts⟩ | ⟨j, a, ha, he, hreceive⟩
  · refine ⟨?_, fun s event h ↦ absurd h (hdelivery s event)⟩
    simp only [age, hattempts, Nat.le_refl]
  · have hage : n.age j = a.stage.rank := by simp [age, ha]
    rw [hreceive, he]
    rcases attemptEvent_cases ha he with ⟨event, heffect, -, hpermits, hnetwork⟩ |
      ⟨-, hdelivery, hnetwork⟩ | ⟨hpending, -, heq⟩ | ⟨-, -, heq⟩
    · obtain ⟨hle, hlt, hpositive, hfirst⟩ := Stage.rank_after hpermits
      rw [hnetwork, heffect]
      refine ⟨age_le_setStage ha hle k, ?_⟩
      rintro s _ ⟨⟩ ⟨⟩
      rw [age_setStage ha, if_pos rfl, hage]
      exact ⟨hlt, hpositive, hfirst⟩
    · rw [hnetwork, hdelivery]
      refine ⟨Nat.le_refl _, ?_⟩
      rintro _ _ ⟨⟩
    · rw [heq]
      refine ⟨age_le_setStage ha (hpending ▸ Nat.zero_le _) k, ?_⟩
      rintro _ _ ⟨⟩
    · rw [heq]
      refine ⟨age_le_setStage ha a.stage.rank_le k, ?_⟩
      rintro _ _ ⟨⟩

/-- The event that an owner is told of. -/
def LineEntry.event? : LineEntry → Option Channel.Event
  | .heard event => some event
  | .called _ _ => none

namespace Line

variable {l : Line} {h : Hold} {owner : Owner} {address : Address} {failed : Nat → Prop}

/-! ### What is told of an attempt -/

/-- What the owner is told of an attempt in a step. -/
def heardIn (k : Nat) (r : Result) : Step → List Channel.Event
  | .network e => if e.attempt? = some k then r.entries.filterMap (·.event?) else []
  | .call _ => []

/-- What the owner is told of an attempt in steps. -/
def heardOf (k : Nat) (l : Line) : List (Owner × Step) → List Channel.Event
  | [] => []
  | (owner, s) :: rest =>
    heardIn k (l.step owner s).1 s ++ heardOf k (l.step owner s).2 rest

private theorem step_of_told (howned : l.owned = true) (owner : Owner) {socket : Nat}
    {event : Channel.Event}
    (hdelivery : (l.network.receive e).1.delivery = some (.socket socket event)) :
    let effect := (l.network.receive e).1
    let told : Line := { l with
      phase := l.phase.after event, network := (l.network.receive e).2 }
    let made := told.callAll (owner event)
    l.step owner (.network e) =
      (⟨.network effect.outcome, .heard event :: made.1,
        effect.seen ++ made.2.1 ++ made.2.2.settle.1⟩, made.2.2.settle.2) := by
  simp only [Line.step, hdelivery, hear, howned, if_true]

private theorem step_of_silent (owner : Owner)
    (hdelivery : ∀ socket event,
      (l.network.receive e).1.delivery ≠ some (.socket socket event)) :
    l.step owner (.network e) =
      (⟨.network (l.network.receive e).1.outcome, [], (l.network.receive e).1.seen⟩,
        { l with network := (l.network.receive e).2 }) := by
  simp only [Line.step]

private theorem age_call (l : Line) (c : ChannelCall) (k : Nat) :
    (l.call c).2.2.network.age k = l.network.age k := by
  cases c with
  | close => exact age_take l.network (.close 0) k
  | connect address =>
    simp only [Line.call]
    split <;> rfl
  | send bytes =>
    simp only [Line.call]
    split <;> rfl

/-- What every call keeps holds after all of them. -/
theorem callAll_induction {P : Line → Prop} {cs : List ChannelCall}
    (hcall : ∀ l, ∀ c ∈ cs, P l → P (l.call c).2.2) (hl : P l) : P (l.callAll cs).2.2 := by
  induction cs generalizing l with
  | nil => exact hl
  | cons c rest ih =>
    obtain ⟨hfirst, hrest⟩ := forall_and.1 fun l ↦ List.forall_mem_cons.1 (hcall l)
    exact ih hrest (hfirst l hl)

private theorem age_callAll (l : Line) (cs : List ChannelCall) (k : Nat) :
    (l.callAll cs).2.2.network.age k = l.network.age k := by
  refine callAll_induction (P := fun l' ↦ l'.network.age k = l.network.age k) ?_ rfl
  exact fun l' c _ hl' ↦ (age_call l' c k).trans hl'

/-- Calls tell the owner nothing. -/
theorem event?_callAll (l : Line) (cs : List ChannelCall) :
    (l.callAll cs).1.filterMap (·.event?) = [] := by
  induction cs generalizing l with
  | nil => rfl
  | cons c rest ih => exact ih _

/-- What happens to a channel is told once. -/
theorem event?_hear (l : Line) (owner : Owner) (event : Channel.Event) :
    (l.hear owner event).1.filterMap (·.event?) = if l.owned then [event] else [] := by
  simp only [hear]
  split
  · exact congrArg (List.cons event) (event?_callAll _ _)
  · rfl

/-- A step takes every attempt on, and the owner is told as far as it does. -/
theorem age_step (l : Line) (owner : Owner) (s : Step) (k : Nat) :
    l.network.age k ≤ (l.step owner s).2.network.age k ∧
      ∀ event ∈ heardIn k (l.step owner s).1 s,
        l.network.age k < 2 ∧ 1 ≤ (l.step owner s).2.network.age k ∧
          (event = .connected → l.network.age k = 0) := by
  cases s with
  | call c =>
    have hage : (l.step owner (.call c)).2.network.age k = l.network.age k :=
      (age_settle _ k).trans (age_call l c k)
    refine ⟨Nat.le_of_eq hage.symm, ?_⟩
    rintro _ ⟨⟩
  | network e =>
    obtain ⟨hle, htold⟩ := age_receive l.network e k
    simp only [heardIn, Line.step]
    split
    · next s event hdelivery =>
      have hage : (({ l with network := (l.network.receive e).2 }.hear owner event).2.2.settle
          ).2.network.age k = (l.network.receive e).2.age k := by
        refine (age_settle _ k).trans ?_
        simp only [hear]
        split
        · exact age_callAll _ _ k
        · rfl
      refine ⟨Nat.le_trans hle (Nat.le_of_eq hage.symm), fun event' hevent ↦ ?_⟩
      split at hevent
      · next he =>
        have hsame : event' = event := by
          rw [event?_hear] at hevent
          split at hevent
          · exact List.mem_singleton.1 hevent
          · cases hevent
        subst hsame
        rw [hage]
        exact htold s event' hdelivery he
      · cases hevent
    · refine ⟨hle, fun event hevent ↦ ?_⟩
      split at hevent <;> cases hevent

private theorem age_run (l : Line) (steps : List (Owner × Step)) (k : Nat) :
    l.network.age k ≤ (l.run steps).network.age k := by
  induction steps generalizing l with
  | nil => exact Nat.le_refl _
  | cons s rest ih => exact Nat.le_trans (age_step l s.1 s.2 k).1 (ih _)

/-- Nothing was told of an attempt that has come to nothing yet. -/
theorem heardOf_of_pending (l : Line) {steps : List (Owner × Step)} {k : Nat}
    (hage : (l.run steps).network.age k = 0) : heardOf k l steps = [] := by
  induction steps generalizing l with
  | nil => rfl
  | cons s rest ih =>
    have hlater : (l.step s.1 s.2).2.network.age k = 0 :=
      Nat.le_zero.1 (hage ▸ age_run _ rest k)
    have hnow : heardIn k (l.step s.1 s.2).1 s.2 = [] := by
      refine List.eq_nil_iff_forall_not_mem.2 fun event hevent ↦ ?_
      have htold := ((age_step l s.1 s.2 k).2 event hevent).2.1
      omega
    simp only [heardOf, hnow, ih _ hage, List.append_nil]

/-- Nothing more is told of an attempt that is over. -/
theorem heardOf_of_over (l : Line) (steps : List (Owner × Step)) {k : Nat}
    (hage : 2 ≤ l.network.age k) : heardOf k l steps = [] := by
  induction steps generalizing l with
  | nil => rfl
  | cons s rest ih =>
    obtain ⟨hle, htold⟩ := age_step l s.1 s.2 k
    have hnow : heardIn k (l.step s.1 s.2).1 s.2 = [] := by
      refine List.eq_nil_iff_forall_not_mem.2 fun event hevent ↦ ?_
      have hbefore := (htold event hevent).1
      omega
    simp only [heardOf, hnow, ih _ (Nat.le_trans hage hle), List.nil_append]

/-- An attempt that has its connection gets no other. -/
theorem connected_notMem_heardOf (l : Line) (steps : List (Owner × Step)) {k : Nat}
    (hage : 1 ≤ l.network.age k) : .connected ∉ heardOf k l steps := by
  induction steps generalizing l with
  | nil => exact List.not_mem_nil
  | cons s rest ih =>
    obtain ⟨hle, htold⟩ := age_step l s.1 s.2 k
    simp only [heardOf, List.mem_append, not_or]
    refine ⟨fun hevent ↦ ?_, ih _ (Nat.le_trans hage hle)⟩
    have hbefore := (htold .connected hevent).2.2 rfl
    omega

private theorem heardOf_append (l : Line) (steps rest : List (Owner × Step)) (k : Nat) :
    heardOf k l (steps ++ rest) = heardOf k l steps ++ heardOf k (l.run steps) rest := by
  induction steps generalizing l with
  | nil => rfl
  | cons s steps ih =>
    simp only [List.cons_append, heardOf, ih, List.append_assoc]
    rfl

/-! ### Attempts under way -/

/-- Whether an attempt of the channel is under way: it has started, has not come to its end, and was
not given up. -/
def IsUnderWay (l : Line) (k : Nat) : Prop := l.network.attempts[k]? = some { socket := 0 }

/-- Whether a channel waits for an attempt that has come to its end, of which it was not told. -/
structure IsStranded (l : Line) (k : Nat) : Prop where
  phase : l.phase = .connecting
  queue : l.network.queue = []
  attempt : l.network.attempts[k]? = some { socket := 0, stage := .over }
  live : Lives l.network Option.none

/-- Whether a channel is as the connection that was asked for last leaves it, or is stranded by an
attempt that failed in a given way. -/
def IsPoised (failed : Nat → Prop) (l : Line) : Prop :=
  (∃ h, l.Rests h) ∨ ∃ k, failed k ∧ l.IsStranded k

private theorem IsPoised.mono {failed' : Nat → Prop} (hl : l.IsPoised failed)
    (hfailed : ∀ k, failed k → failed' k) : l.IsPoised failed' :=
  hl.imp_right fun ⟨k, hk, hstranded⟩ ↦ ⟨k, hfailed k hk, hstranded⟩

private theorem IsPoised.call (hl : l.IsPoised failed) (c : ChannelCall) :
    (l.call c).2.2.IsPoised failed := by
  rcases hl with ⟨h, hrests⟩ | ⟨k, hk, hstranded⟩
  · exact .inl ⟨_, hrests.call c⟩
  · cases c with
    | connect address =>
      have hcall : l.call (.connect address) = (.accepted false, [], l) := by
        simp [Line.call, Channel.Phase.canDial, hstranded.phase]
      rw [hcall]
      exact .inr ⟨k, hk, hstranded⟩
    | send bytes =>
      have hcall : l.call (.send bytes) = (.sent none, [], l) := by
        simp [Line.call, Channel.Phase.canSend, hstranded.phase]
      rw [hcall]
      exact .inr ⟨k, hk, hstranded⟩
    | close =>
      refine .inl ⟨.none, .none rfl ?_ ?_⟩
      · simp [Line.call, ask, take, abandon, withdraw, hstranded.queue]
      · have hlive : Lives ((l.network.withdraw 0).abandon 0) none := by
          apply lives_abandon
          · exact hstranded.live
          · rintro _ ⟨⟩
        exact hlive

private theorem IsPoised.callAll (hl : l.IsPoised failed) (cs : List ChannelCall) :
    (l.callAll cs).2.2.IsPoised failed :=
  callAll_induction (fun _ c _ hl ↦ hl.call c) hl

private theorem IsPoised.settle (hl : l.IsPoised failed) : l.settle.2.IsPoised failed := by
  rcases hl with ⟨h, hrests⟩ | ⟨k, hk, hstranded⟩
  · have hbefore := hrests
    have hidle (hqueue : l.network.queue = []) : l.settle.2.IsPoised failed := by
      rw [settle_eq_self hqueue]
      exact .inl ⟨h, hbefore⟩
    cases hrests with
    | wanted => exact .inl ⟨_, hbefore.settle_of_wanted.2.2⟩
    | none _ queue => exact hidle queue
    | pending _ queue => exact hidle queue
    | up _ queue => exact hidle queue
  · rw [settle_eq_self hstranded.queue]
    exact .inr ⟨k, hk, hstranded⟩

/-- Nothing reaches a stranded channel. -/
theorem IsStranded.receive (hl : l.IsStranded k) (e : Event) :
    (∀ s event, (l.network.receive e).1.delivery ≠ some (.socket s event)) ∧
      ({ l with network := (l.network.receive e).2 } : Line).IsStranded k := by
  rcases receive_cases l.network e with ⟨hdelivery, hqueue, hattempts⟩ | ⟨j, a, ha, -, hreceive⟩
  · refine ⟨hdelivery, hl.phase, hqueue.trans hl.queue, ?_, fun j a ha ↦ ?_⟩
    · exact hattempts ▸ hl.attempt
    · exact hl.live j a (hattempts ▸ ha)
  · have hdead : a.IsDead := (hl.live j a ha).resolve_right (by simp)
    rw [hreceive]
    obtain ⟨hdelivery, heq | ⟨habandoned, stage, heq⟩⟩ :=
      attemptEvent_of_isDead l.network j e hdead
    · rw [heq]
      exact ⟨by simp [hdelivery], hl⟩
    · have hne : j ≠ k := by
        rintro rfl
        cases ha.symm.trans hl.attempt
        cases habandoned
      rw [heq]
      refine ⟨by simp [hdelivery], hl.phase, hl.queue, ?_,
        lives_setStage hl.live ha habandoned stage⟩
      simp [setStage, hne, hl.attempt]

/-- An attempt that fails by an error that does not come from the operating system strands its
channel. -/
theorem Rests.receive_foreign (hl : l.Rests (.pending k)) :
    l.network.receive (.fail k .foreign) =
        (⟨.done, [], Option.none⟩, l.network.setStage k .over) ∧
      ({ l with network := l.network.setStage k .over } : Line).IsStranded k := by
  cases hl with
  | pending phase queue attempt live =>
    refine ⟨by simp [Network.receive, attempt, attemptEvent], phase, queue, ?_,
      lives_setStage_over live⟩
    simp [setStage, attempt]

/-- What reaches a channel leaves it as its connection. -/
theorem IsPoised.told (hl : l.IsPoised failed) {socket : Nat} {event : Channel.Event}
    (hdelivery : (l.network.receive e).1.delivery = some (.socket socket event)) :
    ({ l with
      phase := l.phase.after event
      network := (l.network.receive e).2 } : Line).IsPoised failed := by
  rcases hl with ⟨h, hrests⟩ | ⟨k, hk, hstranded⟩
  · cases htells : h.tells e with
    | none => exact absurd hdelivery ((hrests.receive_of_silent htells).1 _ _)
    | some event' =>
      have hanswered (k : Nat) : e ≠ .fail k .foreign := by
        rintro rfl
        obtain rfl : h = .pending k := by
          cases h <;> simp_all [Hold.tells]
        rw [hrests.receive_foreign.1] at hdelivery
        cases hdelivery
      obtain ⟨hdelivery', -, hafter⟩ := hrests.receive_of_told htells hanswered []
      cases hdelivery'.symm.trans hdelivery
      exact .inl ⟨_, hafter⟩
  · exact absurd hdelivery ((hstranded.receive e).1 _ _)

/-- What does not reach a channel leaves it as it is, or strands it. -/
theorem IsPoised.silent (hl : l.IsPoised failed)
    (hdelivery : ∀ socket event,
      (l.network.receive e).1.delivery ≠ some (.socket socket event)) :
    ({ l with network := (l.network.receive e).2 } : Line).IsPoised
      fun k ↦ failed k ∨ e = .fail k .foreign := by
  rcases hl with ⟨h, hrests⟩ | ⟨k, hk, hstranded⟩
  · cases htells : h.tells e with
    | none => exact .inl ⟨h, (hrests.receive_of_silent htells).2.2⟩
    | some event =>
      by_cases hforeign : ∃ k, e = .fail k .foreign
      · obtain ⟨k, rfl⟩ := hforeign
        obtain rfl : h = .pending k := by
          cases h <;> simp_all [Hold.tells]
        obtain ⟨hreceive, hstranded⟩ := hrests.receive_foreign
        rw [hreceive]
        exact .inr ⟨k, .inr rfl, hstranded⟩
      · have htold := hrests.receive_of_told htells (fun k heq ↦ hforeign ⟨k, heq⟩) []
        exact absurd htold.1 (hdelivery _ _)
  · exact .inr ⟨k, .inl hk, (hstranded.receive e).2⟩

private theorem IsPoised.step (hl : l.IsPoised failed) (owner : Owner) (s : Step) :
    (l.step owner s).2.IsPoised fun k ↦ failed k ∨ s = .network (.fail k .foreign) := by
  cases s with
  | call c => exact (hl.call c).settle.mono fun _ ↦ .inl
  | network e =>
    simp only [Line.step]
    split
    · next socket event hdelivery =>
      refine IsPoised.mono (IsPoised.settle ?_) fun _ ↦ .inl
      simp only [Line.hear]
      split
      · exact (hl.told hdelivery).callAll (owner event)
      · exact hl.told hdelivery
    · next hdelivery =>
      refine (hl.silent hdelivery).mono fun k ↦ ?_
      rintro (hfailed | rfl)
      · exact .inl hfailed
      · exact .inr rfl

/-- After a step nothing is about to start. -/
theorem queue_step (hqueue : l.network.queue = []) (owner : Owner) (s : Step) :
    (l.step owner s).2.network.queue = [] := by
  cases s with
  | call c => exact queue_settle _
  | network e =>
    simp only [Line.step]
    split
    · exact queue_settle _
    · exact (queue_receive l.network e).trans hqueue

/-- Whether an attempt fails in steps by an error that does not come from the operating system. -/
def FailsForeign (steps : List (Owner × Step)) (k : Nat) : Prop :=
  ∃ owner, (owner, .network (.fail k .foreign)) ∈ steps

private theorem IsPoised.run (hl : l.IsPoised failed) (steps : List (Owner × Step)) :
    (l.run steps).IsPoised fun k ↦ failed k ∨ FailsForeign steps k := by
  induction steps generalizing l failed with
  | nil => exact hl.mono fun _ ↦ .inl
  | cons s rest ih =>
    refine (ih (hl.step s.1 s.2)).mono fun k ↦ ?_
    rintro ((hfailed | hnow) | ⟨owner, hlater⟩)
    · exact .inl hfailed
    · refine .inr ⟨s.1, ?_⟩
      rw [← hnow]
      exact List.mem_cons_self
    · exact .inr ⟨owner, List.mem_cons_of_mem _ hlater⟩

private theorem queue_run (hqueue : l.network.queue = []) (steps : List (Owner × Step)) :
    (l.run steps).network.queue = [] := by
  induction steps generalizing l with
  | nil => exact hqueue
  | cons s rest ih => exact ih (queue_step hqueue s.1 s.2)

/-! ### What becomes of a connect that is granted -/

/-- A channel that wants a connection wants it until it is closed. -/
theorem rests_call_of_wanted (hl : l.Rests (.wanted address)) {c : ChannelCall} (hc : c ≠ .close) :
    (l.call c).2.2.Rests (.wanted address) := by
  have hafter := hl.call c
  cases c with
  | connect other =>
    have hrefused : (l.call (.connect other)).1 = .accepted false := by
      simp [Line.call, Channel.Phase.canDial, hl.phase_eq, Hold.phase]
    rw [hrefused] at hafter
    exact hafter
  | send bytes => exact hafter
  | close => exact absurd rfl hc

private theorem rests_callAll_of_wanted (hl : l.Rests (.wanted address)) {cs : List ChannelCall}
    (hcs : .close ∉ cs) : (l.callAll cs).2.2.Rests (.wanted address) :=
  callAll_induction (P := (·.Rests (.wanted address)))
    (fun _ _ hc hl ↦ rests_call_of_wanted hl (ne_of_mem_of_not_mem hc hcs)) hl

/-- The owner sees of each call that it is made. -/
theorem exists_called (l : Line) {cs : List ChannelCall} {c : ChannelCall} (hc : c ∈ cs) :
    ∃ a, .called c a ∈ (l.callAll cs).1 := by
  induction cs generalizing l with
  | nil => cases hc
  | cons first rest ih =>
    rcases List.mem_cons.1 hc with rfl | hrest
    · exact ⟨_, List.mem_cons_self⟩
    · obtain ⟨a, ha⟩ := ih (l.call first).2.2 hrest
      exact ⟨a, List.mem_cons_of_mem _ ha⟩

/-- A granted connect is of a channel that was closed. -/
theorem IsPoised.call_of_granted (hl : l.IsPoised failed)
    (hgranted : (l.call (.connect address)).1 = .accepted true) :
    (l.call (.connect address)).2.2.Rests (.wanted address) := by
  rcases hl with ⟨h, hrests⟩ | ⟨k, -, hstranded⟩
  · have hafter := hrests.call (.connect address)
    rw [hgranted] at hafter
    exact hafter
  · simp [Line.call, Channel.Phase.canDial, hstranded.phase] at hgranted

/-- Where calls grant a connect, its attempt is wanted in the end, unless the channel is closed
after it. -/
theorem IsPoised.callAll_of_granted (hl : l.IsPoised failed) {cs : List ChannelCall}
    {before later : List LineEntry}
    (hentries : (l.callAll cs).1 = before ++ .called (.connect address) (.accepted true) :: later)
    (hlater : ∀ a, .called .close a ∉ later) : (l.callAll cs).2.2.Rests (.wanted address) := by
  induction cs generalizing l before with
  | nil => simp [Line.callAll] at hentries
  | cons c rest ih =>
    cases before with
    | nil =>
      simp only [Line.callAll, List.nil_append, List.cons.injEq, LineEntry.called.injEq] at hentries
      obtain ⟨⟨rfl, hgranted⟩, hrest⟩ := hentries
      apply rests_callAll_of_wanted (hl.call_of_granted hgranted)
      intro hclose
      obtain ⟨a, ha⟩ := exists_called _ hclose
      exact hlater a (hrest ▸ ha)
    | cons x before =>
      simp only [Line.callAll, List.cons_append, List.cons.injEq] at hentries
      exact ih (hl.call c) hentries.2

/-- The attempt that is wanted when calls are over is under way then. -/
theorem isUnderWay_settle (hl : l.Rests (.wanted address)) :
    l.settle.1 = [.connect l.network.attempts.length address] ∧
      l.settle.2.IsUnderWay l.network.attempts.length := by
  obtain ⟨hseen, hattempts, -⟩ := hl.settle_of_wanted
  refine ⟨hseen, ?_⟩
  simp [IsUnderWay, hattempts]

/-- A connect that is granted in a step starts an attempt in it, unless the channel is closed after
it. -/
theorem IsPoised.step_of_granted (hl : l.IsPoised failed) (howned : l.owned = true) {s : Step}
    {before later : List LineEntry}
    (hentries : (l.step owner s).1.entriesOf s =
      before ++ .called (.connect address) (.accepted true) :: later)
    (hlater : ∀ a, .called .close a ∉ later) :
    ∃ k, .connect k address ∈ (l.step owner s).1.seen ∧ (l.step owner s).2.IsUnderWay k := by
  cases s with
  | call c =>
    obtain ⟨rfl, hgranted⟩ : c = .connect address ∧ (l.call c).1 = .accepted true := by
      have hone : [LineEntry.called c (l.call c).1] =
          before ++ .called (.connect address) (.accepted true) :: later := hentries
      cases before with
      | nil =>
        simp only [List.nil_append, List.cons.injEq, LineEntry.called.injEq] at hone
        exact hone.1
      | cons x rest => simp at hone
    obtain ⟨hseen, hway⟩ := isUnderWay_settle (hl.call_of_granted hgranted)
    refine ⟨_, ?_, hway⟩
    simp only [Line.step, hseen]
    exact List.mem_append_right _ List.mem_cons_self
  | network e =>
    by_cases hdelivery : ∃ socket event,
        (l.network.receive e).1.delivery = some (.socket socket event)
    · obtain ⟨socket, event, hdelivery⟩ := hdelivery
      rw [step_of_told howned owner hdelivery] at hentries ⊢
      cases before with
      | nil => cases hentries
      | cons x before =>
        have hrests := (hl.told hdelivery).callAll_of_granted (List.cons.inj hentries).2 hlater
        obtain ⟨hseen, hway⟩ := isUnderWay_settle hrests
        refine ⟨_, ?_, hway⟩
        simp only [hseen]
        exact List.mem_append_right _ List.mem_cons_self
    · rw [step_of_silent owner fun socket event h ↦ hdelivery ⟨socket, event, h⟩] at hentries
      simp [Result.entriesOf] at hentries

/-! ### What becomes of an attempt under way -/

private theorem IsUnderWay.call (hk : l.IsUnderWay k) {c : ChannelCall} (hc : c ≠ .close) :
    (l.call c).2.2.IsUnderWay k := by
  cases c with
  | connect address =>
    simp only [Line.call]
    split <;> exact hk
  | send bytes =>
    simp only [Line.call]
    split <;> exact hk
  | close => exact absurd rfl hc

private theorem IsUnderWay.callAll (hk : l.IsUnderWay k) {cs : List ChannelCall}
    (hcs : .close ∉ cs) :
    (l.callAll cs).2.2.IsUnderWay k :=
  callAll_induction (P := (·.IsUnderWay k))
    (fun _ _ hc hl ↦ hl.call (ne_of_mem_of_not_mem hc hcs)) hk

private theorem IsUnderWay.settle (hk : l.IsUnderWay k) : l.settle.2.IsUnderWay k := by
  have hattempt : ({ l.network with queue := [] } : Network).attempts[k]? = some { socket := 0 } :=
    hk
  exact getElem?_startAll hattempt l.network.queue

/-- Whether an event is what an attempt comes to. -/
def IsOutcome (k : Nat) (s : Step) : Prop :=
  s = .network (.up k) ∨ ∃ ending, s = .network (.fail k ending)

/-- Nothing but its own outcome happens to an attempt under way. -/
theorem IsUnderWay.receive (hk : l.IsUnderWay k) (he : ¬ IsOutcome k (.network e)) :
    (l.network.receive e).2.attempts[k]? = some { socket := 0 } := by
  rcases receive_cases l.network e with ⟨-, -, hattempts⟩ | ⟨j, a, ha, hattempt, hreceive⟩
  · rw [hattempts, hk]
  · rw [hreceive]
    by_cases hjk : j = k
    · subst j
      cases ha.symm.trans hk
      cases e with
      | up j =>
        cases hattempt
        exact absurd (.inl rfl) he
      | fail j ending =>
        cases hattempt
        exact absurd (.inr ⟨ending, rfl⟩) he
      | data j bytes => exact hk
      | lost j ending => exact hk
      | resolved j addresses => cases hattempt
      | lookupFailed j foreign => cases hattempt
    · have hother (stage : Stage) :
          (l.network.setStage j stage).attempts[k]? = some { socket := 0 } := by
        rw [← show l.network.attempts[k]? = some { socket := 0 } from hk]
        simp [setStage, hjk]
      rcases attemptEvent_cases ha hattempt with ⟨event, -, -, -, hnetwork⟩ |
        ⟨-, -, hnetwork⟩ | ⟨-, -, heq⟩ | ⟨-, -, heq⟩
      · rw [hnetwork]
        exact hother _
      · rw [hnetwork]
        exact hk
      · rw [heq]
        exact hother .up
      · rw [heq]
        exact hother .over

/-- An attempt is under way until its outcome, or until the channel is closed. -/
theorem IsUnderWay.step (hk : l.IsUnderWay k) (howned : l.owned = true) {s : Step}
    (hs : ¬ IsOutcome k s) (hopen : ∀ a, .called .close a ∉ (l.step owner s).1.entriesOf s) :
    (l.step owner s).2.IsUnderWay k := by
  cases s with
  | call c =>
    refine IsUnderWay.settle (hk.call ?_)
    rintro rfl
    exact hopen _ List.mem_cons_self
  | network e =>
    have hreceived (phase : Channel.Phase) : ({ l with
        phase, network := (l.network.receive e).2 } : Line).IsUnderWay k := hk.receive hs
    by_cases hdelivery : ∃ socket event,
        (l.network.receive e).1.delivery = some (.socket socket event)
    · obtain ⟨socket, event, hdelivery⟩ := hdelivery
      rw [step_of_told howned owner hdelivery] at hopen ⊢
      refine IsUnderWay.settle (IsUnderWay.callAll (hreceived _) fun hclose ↦ ?_)
      obtain ⟨a, ha⟩ := exists_called _ hclose
      exact hopen a (List.mem_cons_of_mem _ ha)
    · rw [step_of_silent owner fun socket event h ↦ hdelivery ⟨socket, event, h⟩]
      exact hreceived l.phase

private theorem IsUnderWay.age_eq (hk : l.IsUnderWay k) : l.network.age k = 0 := by
  simp [age, show l.network.attempts[k]? = some _ from hk, Stage.rank]

private theorem IsUnderWay.receive_up (hk : l.IsUnderWay k) : l.network.receive (.up k) =
    (⟨.done, [], some (.socket 0 .connected)⟩, l.network.setStage k .up) := by
  simp [Network.receive, show l.network.attempts[k]? = some _ from hk, attemptEvent]

private theorem IsUnderWay.receive_fail (hk : l.IsUnderWay k) {ending : Channel.Ending}
    (hending : ending ≠ .foreign) : l.network.receive (.fail k ending) =
      (⟨.done, [], some (.socket 0 (.closed ending.code))⟩, l.network.setStage k .over) := by
  simp [Network.receive, show l.network.attempts[k]? = some _ from hk, attemptEvent, hending]

/-! ### Runs -/

/-- Calls make no difference to whether a channel has an owner and a network at hand. -/
theorem fixed_call (l : Line) (c : ChannelCall) :
    (l.call c).2.2.owned = l.owned ∧ (l.call c).2.2.online = l.online := by
  cases c with
  | close => exact ⟨rfl, rfl⟩
  | connect address =>
    simp only [Line.call]
    split <;> exact ⟨rfl, rfl⟩
  | send bytes =>
    simp only [Line.call]
    split <;> exact ⟨rfl, rfl⟩

private theorem fixed_callAll (l : Line) (cs : List ChannelCall) :
    (l.callAll cs).2.2.owned = l.owned ∧ (l.callAll cs).2.2.online = l.online := by
  refine callAll_induction
    (P := fun l' ↦ l'.owned = l.owned ∧ l'.online = l.online) ?_ ⟨rfl, rfl⟩
  rintro l' c - ⟨howned, honline⟩
  obtain ⟨howned', honline'⟩ := fixed_call l' c
  exact ⟨howned'.trans howned, honline'.trans honline⟩

private theorem fixed_step (l : Line) (owner : Owner) (s : Step) :
    (l.step owner s).2.owned = l.owned ∧ (l.step owner s).2.online = l.online := by
  cases s with
  | call c => exact fixed_call l c
  | network e =>
    simp only [Line.step]
    split
    · simp only [hear]
      split
      · exact fixed_callAll _ _
      · exact ⟨rfl, rfl⟩
    · exact ⟨rfl, rfl⟩

private theorem fixed_run (l : Line) (steps : List (Owner × Step)) :
    (l.run steps).owned = l.owned ∧ (l.run steps).online = l.online := by
  induction steps generalizing l with
  | nil => exact ⟨rfl, rfl⟩
  | cons s rest ih =>
    obtain ⟨howned, honline⟩ := fixed_step l s.1 s.2
    obtain ⟨howned', honline'⟩ := ih (l.step s.1 s.2).2
    exact ⟨howned'.trans howned, honline'.trans honline⟩

/-- A channel with an attempt under way is connecting. -/
theorem IsPoised.phase_of_isUnderWay (hl : l.IsPoised failed) (hk : l.IsUnderWay k) :
    l.phase = .connecting := by
  have halive : ¬ ({ socket := 0 } : Attempt).IsDead := by simp [Attempt.IsDead]
  rcases hl with ⟨h, hrests⟩ | ⟨j, -, hstranded⟩
  · cases hrests with
    | none _ _ live => cases (live k _ hk).resolve_left halive
    | wanted phase => exact phase
    | pending phase => exact phase
    | up _ _ attempt live =>
      cases (live k _ hk).resolve_left halive
      cases hk.symm.trans attempt
  · exact hstranded.phase

/-- A connecting channel waits for an attempt under way, unless it is stranded. -/
theorem IsPoised.exists_isUnderWay (hl : l.IsPoised failed) (hqueue : l.network.queue = [])
    (hphase : l.phase = .connecting) : ∃ k, l.IsUnderWay k ∨ failed k ∧ l.IsStranded k := by
  rcases hl with ⟨h, hrests⟩ | ⟨k, hk, hstranded⟩
  · cases hrests with
    | none phase => cases hphase.symm.trans phase
    | wanted _ queue => cases hqueue.symm.trans queue
    | pending _ _ attempt => exact ⟨_, .inl attempt⟩
    | up phase => cases hphase.symm.trans phase
  · exact ⟨k, .inr ⟨hk, hstranded⟩⟩

/-- What reaches a channel is told of its attempt. -/
theorem heardIn_of_told (howned : l.owned = true) (owner : Owner) {socket : Nat}
    {event : Channel.Event}
    (hdelivery : (l.network.receive e).1.delivery = some (.socket socket event))
    (he : e.attempt? = some k) :
    heardIn k (l.step owner (.network e)).1 (.network e) = [event] := by
  rw [step_of_told howned owner hdelivery]
  simp only [heardIn, he, if_true]
  exact congrArg (List.cons event) (event?_callAll _ _)

/-- A closed channel can be dialled if there is a network at hand. -/
theorem call_connect_of_closed (hclosed : l.phase = .closed) (address : Address) :
    (l.call (.connect address)).1 = .accepted l.online := by
  cases honline : l.online <;>
    simp [Line.call, Channel.Phase.canDial, hclosed, honline]

/-- Of an attempt that gets its connection its owner is told so once. -/
theorem IsUnderWay.heardOf_up (hk : l.IsUnderWay k) (howned : l.owned = true) (owner : Owner)
    (rest : List (Owner × Step)) :
    ∃ later, heardOf k l ((owner, .network (.up k)) :: rest) = .connected :: later ∧
      .connected ∉ later := by
  have hdelivery : (l.network.receive (.up k)).1.delivery = some (.socket 0 .connected) := by
    rw [hk.receive_up]
  have hheard := heardIn_of_told howned owner hdelivery rfl
  refine ⟨heardOf k (l.step owner (.network (.up k))).2 rest, ?_, ?_⟩
  · simp only [heardOf, hheard, List.singleton_append]
  · apply connected_notMem_heardOf
    refine ((age_step l owner (.network (.up k)) k).2 .connected ?_).2.1
    rw [hheard]
    exact List.mem_singleton_self _

/-- Of an attempt that fails its owner is told so once, and finds the channel closed. -/
theorem IsUnderWay.heardOf_fail (hk : l.IsUnderWay k) (howned : l.owned = true) (owner : Owner)
    {ending : Channel.Ending} (hending : ending ≠ .foreign) (rest : List (Owner × Step)) :
    heardOf k l ((owner, .network (.fail k ending)) :: rest) = [.closed ending.code] ∧
      (owner (.closed ending.code) = [] →
        (l.step owner (.network (.fail k ending))).2.phase = .closed) ∧
      ∀ address more, owner (.closed ending.code) = .connect address :: more →
        ∃ others, (l.step owner (.network (.fail k ending))).1.entries =
          .heard (.closed ending.code) :: .called (.connect address) (.accepted l.online) ::
            others := by
  have hreceive := hk.receive_fail hending
  have hdelivery : (l.network.receive (.fail k ending)).1.delivery =
      some (.socket 0 (.closed ending.code)) := by rw [hreceive]
  have hheard := heardIn_of_told howned owner hdelivery rfl
  refine ⟨?_, fun hnothing ↦ ?_, fun address more hcalls ↦ ?_⟩
  · have hage : (l.step owner (.network (.fail k ending))).2.network.age k = 2 := by
      rw [step_of_told howned owner hdelivery]
      refine (age_settle _ k).trans ((age_callAll _ _ k).trans ?_)
      rw [hreceive]
      exact (age_setStage hk .over k).trans (if_pos rfl)
    simp only [heardOf, hheard, heardOf_of_over _ rest (Nat.le_of_eq hage.symm), List.append_nil]
  · rw [step_of_told howned owner hdelivery, hnothing]
    rfl
  · rw [step_of_told howned owner hdelivery, hcalls]
    simp only [Line.callAll]
    rw [call_connect_of_closed rfl]
    exact ⟨_, rfl⟩

/-- Every connect that is granted is answered. It starts an attempt, unless the owner closes the
channel after it in the same step; a channel that is connecting waits for such an attempt, or for
one that failed by an error that does not come from the operating system. The attempt is under way
until its outcome, or until the owner closes the channel. If it gets its connection the owner is
told so once, and if it fails otherwise the owner is told that the channel closed, and of nothing
else, and can dial again at once. -/
theorem connect_is_answered (name : String) (online : Bool) (done : List (Owner × Step)) :
    let fresh : Line := { name, online }
    let l := fresh.run done
    (∀ owner s before address later, (l.step owner s).1.entriesOf s =
        before ++ .called (.connect address) (.accepted true) :: later →
      (∀ a, .called .close a ∉ later) →
      ∃ k, .connect k address ∈ (l.step owner s).1.seen ∧ (l.step owner s).2.IsUnderWay k) ∧
    (l.phase = .connecting → ∃ k, l.IsUnderWay k ∨ FailsForeign done k ∧ l.IsStranded k) ∧
    ∀ k, l.IsUnderWay k →
      l.phase = .connecting ∧
      (∀ owner s, ¬ IsOutcome k s → (∀ a, .called .close a ∉ (l.step owner s).1.entriesOf s) →
        (l.step owner s).2.IsUnderWay k) ∧
      (∀ owner rest, ∃ later,
        fresh.heardOf k (done ++ (owner, .network (.up k)) :: rest) = .connected :: later ∧
          .connected ∉ later) ∧
      ∀ owner ending rest, ending ≠ .foreign →
        fresh.heardOf k (done ++ (owner, .network (.fail k ending)) :: rest) =
          [.closed ending.code] ∧
        (owner (.closed ending.code) = [] →
          (l.step owner (.network (.fail k ending))).2.phase = .closed) ∧
        ∀ address more, owner (.closed ending.code) = .connect address :: more →
          ∃ others, (l.step owner (.network (.fail k ending))).1.entries =
            .heard (.closed ending.code) :: .called (.connect address) (.accepted online) ::
              others := by
  intro fresh l
  obtain ⟨howned, honline⟩ : l.owned = true ∧ l.online = online := fixed_run fresh done
  have hpoised : l.IsPoised fun k ↦ False ∨ FailsForeign done k :=
    IsPoised.run (.inl ⟨.none, .none rfl rfl (by simp [Lives, fresh])⟩) done
  have hqueue : l.network.queue = [] := queue_run rfl done
  refine ⟨?_, ?_, ?_⟩
  · intro owner s before address later hentries hlater
    exact hpoised.step_of_granted howned hentries hlater
  · intro hphase
    simpa using hpoised.exists_isUnderWay hqueue hphase
  · intro k hk
    have hbefore : fresh.heardOf k done = [] := heardOf_of_pending fresh hk.age_eq
    refine ⟨hpoised.phase_of_isUnderWay hk, fun owner s ↦ hk.step howned, fun owner rest ↦ ?_,
      fun owner ending rest hending ↦ ?_⟩
    · rw [heardOf_append, hbefore, List.nil_append]
      exact hk.heardOf_up howned owner rest
    · have hfail := hk.heardOf_fail howned owner hending rest
      rw [honline] at hfail
      rw [heardOf_append, hbefore, List.nil_append]
      exact hfail

/-- The owner dials, and nobody listens at the address. -/
theorem connect_is_answered_refused :
    let fresh : Line := { name := "command" }
    let dialled := [(eager, Step.call (.connect sampleAddress))]
    (fresh.run dialled).IsUnderWay 0 ∧
      fresh.heardOf 0 (dialled ++ [(eager, .network (.fail 0 .refused))]) = [.closed 111] ∧
      ∃ others, ((fresh.run dialled).step eager (.network (.fail 0 .refused))).1.entries =
        .heard (.closed 111) :: .called (.connect sampleAddress) (.accepted true) :: others := by
  intro fresh dialled
  have hk : (fresh.run dialled).IsUnderWay 0 := by
    unfold IsUnderWay
    decide +kernel
  have hanswered := (connect_is_answered "command" true dialled).2.2 0 hk
  obtain ⟨hheard, -, hagain⟩ := hanswered.2.2.2 eager .refused [] (by simp)
  exact ⟨hk, hheard, hagain sampleAddress [] rfl⟩

/-- The owner dials, and the attempt fails by an error that does not come from the operating
system. -/
def abandoned : List (Owner × Step) := [
  (eager, .call (.connect sampleAddress)), (eager, .network (.fail 0 .foreign))]

/-- Of such an attempt the owner is told nothing, though it came to its end; the channel stays
connecting, and cannot be dialled. -/
theorem connect_unanswered_abandoned :
    let fresh : Line := { name := "command" }
    let l := fresh.run abandoned
    l.network.attempts = [{ socket := 0, stage := .over }] ∧ fresh.heardOf 0 abandoned = [] ∧
      l.phase = .connecting ∧ (l.call (.connect sampleAddress)).1 = .accepted false := by
  decide +kernel

end Line

end Rendezvous.Network
