import Rendezvous.Network.Basic

/-!
# Attempts and lookups on a network

Everything that is about to start does so when a call is over, and nothing that happens on the
network makes anything start. An event of an attempt reaches the socket, unless the attempt is dead
or fails by an error that does not come from the operating system; each case is listed here once.
-/

namespace Rendezvous.Network

/-- Whether an attempt can bring its channel nothing any more. -/
def Attempt.IsDead (a : Attempt) : Prop := a.abandoned = true ∨ a.stage = .over

/-- The place of a stage among the stages. -/
def Stage.rank : Stage → Nat
  | .pending => 0
  | .up => 1
  | .over => 2

/-- The phase of a socket whose attempt has come to a stage. -/
def Stage.phase : Stage → Channel.Phase
  | .pending => .connecting
  | .up => .connected
  | .over => .closed

/-- The stage that an attempt comes to when its socket has an event. -/
def Stage.after (stage : Stage) : Channel.Event → Stage
  | .connected => .up
  | .received _ => stage
  | .closed _ => .over

/-- The stage of an attempt and the phase of its socket move alike. -/
@[simp]
theorem Stage.phase_after (stage : Stage) (event : Channel.Event) :
    (stage.after event).phase = stage.phase.after event := by
  cases event <;> rfl

/-- The attempt that an event happens to. -/
def Event.attempt? : Event → Option Nat
  | .up n => some n
  | .fail n _ => some n
  | .data n _ => some n
  | .lost n _ => some n
  | .resolved _ _ => none
  | .lookupFailed _ _ => none

/-- The lookup that an event ends. -/
def Event.lookup? : Event → Option Nat
  | .resolved k _ => some k
  | .lookupFailed k _ => some k
  | _ => none

/-- The answer that an event is to the lookup of a host: the first address, or what is said where
there is none. There is no answer in an error that does not come from the operating system. -/
def Event.answer? (host : String) : Event → Option Answer
  | .resolved _ [] => some (.failure (noAddresses host))
  | .resolved _ (ip :: _) => some (.address ip)
  | .lookupFailed _ false => some (.failure lookupFailure)
  | _ => none

/-! ### What starts -/

@[simp]
private theorem queue_start (n : Network) (r : Request) : (n.start r).2.queue = n.queue := by
  cases r <;> rfl

@[simp]
private theorem queue_startAll (n : Network) (requests : List Request) :
    (n.startAll requests).2.queue = n.queue := by
  induction requests generalizing n with
  | nil => rfl
  | cons r rest ih => exact (ih _).trans (queue_start n r)

/-- What starts leaves the attempts that there are. -/
theorem getElem?_startAll {n : Network} {k : Nat} {a : Attempt} (ha : n.attempts[k]? = some a)
    (requests : List Request) : (n.startAll requests).2.attempts[k]? = some a := by
  induction requests generalizing n with
  | nil => exact ha
  | cons r rest ih =>
    apply ih
    cases r with
    | lookup host port => exact ha
    | dial socket address =>
      obtain ⟨hk, -⟩ := List.getElem?_eq_some_iff.1 ha
      exact (List.getElem?_append_left hk).trans ha

/-- Once things have started, nothing is about to. -/
@[simp]
theorem queue_settle (n : Network) : n.settle.2.queue = [] := queue_startAll _ _

private theorem queue_attemptEvent (n : Network) (k : Nat) (a : Attempt) (e : Event) :
    (n.attemptEvent k a e).2.queue = n.queue := by
  cases e <;> simp only [attemptEvent] <;> (repeat' split) <;> rfl

private theorem queue_lookupEvent (n : Network) (k : Nat) (l : Lookup) (e : Event) :
    (n.lookupEvent k l e).2.queue = n.queue := by
  cases e <;> simp only [lookupEvent] <;> (repeat' split) <;> rfl

/-- What happens on a network leaves its queue. -/
@[simp]
theorem queue_receive (n : Network) (e : Event) : (n.receive e).2.queue = n.queue := by
  cases e <;> simp only [receive] <;> split <;>
    first | rfl | exact queue_attemptEvent n _ _ _ | exact queue_lookupEvent n _ _ _

/-! ### What happens to attempts -/

variable {network : Network} {e : Event} {a : Attempt} {n : Nat}

/-- What happens to an attempt that is dead does not reach a socket. -/
theorem attemptEvent_of_isDead (network : Network) (n : Nat) (e : Event) (hdead : a.IsDead) :
    (network.attemptEvent n a e).1.delivery = none ∧
      ((network.attemptEvent n a e).2 = network ∨
        a.abandoned = true ∧
          ∃ stage, (network.attemptEvent n a e).2 = network.setStage n stage) := by
  rcases hdead with habandoned | hover
  · have hends {stage} : ∃ last, network.setStage n stage = network.setStage n last := ⟨stage, rfl⟩
    cases e <;> simp only [attemptEvent, habandoned] <;> (try split) <;> simp_all [Effect.ignored]
  · cases e <;> simp [attemptEvent, hover, Effect.ignored]

/-- What happens to an attempt concerns that attempt. -/
theorem receive_of_present (ha : network.attempts[n]? = some a) (he : e.attempt? = some n) :
    network.receive e = network.attemptEvent n a e := by
  cases e <;> cases he <;> simp [receive, ha]

/-- What happens to an attempt that was not made is not heard of. -/
theorem receive_of_absent (ha : network.attempts[n]? = Option.none) (he : e.attempt? = some n) :
    network.receive e = (⟨.absent, [], none⟩, network) := by
  cases e <;> cases he <;> simp [receive, ha]

/-- The answer to a lookup does not reach a socket. -/
theorem receive_of_lookup (network : Network) (he : e.attempt? = Option.none) :
    (∀ s event, (network.receive e).1.delivery ≠ some (.socket s event)) ∧
      (network.receive e).2.queue = network.queue ∧
      (network.receive e).2.attempts = network.attempts := by
  cases e <;> cases he <;> simp only [receive] <;> split <;>
    simp only [lookupEvent] <;> (repeat' split) <;> simp [Effect.ignored, finish]

/-- An event changes nothing for any attempt, or it happens to one that was made. -/
theorem receive_cases (network : Network) (e : Event) :
    ((∀ s event, (network.receive e).1.delivery ≠ some (.socket s event)) ∧
      (network.receive e).2.queue = network.queue ∧
      (network.receive e).2.attempts = network.attempts) ∨
    ∃ n a, network.attempts[n]? = some a ∧ e.attempt? = some n ∧
      network.receive e = network.attemptEvent n a e := by
  cases he : e.attempt? with
  | none => exact .inl (receive_of_lookup network he)
  | some n =>
    cases ha : network.attempts[n]? with
    | none =>
      rw [receive_of_absent ha he]
      exact .inl ⟨by simp, rfl, rfl⟩
    | some a => exact .inr ⟨n, a, ha, rfl, receive_of_present ha he⟩

/-- Bringing an attempt to a stage touches that attempt only. -/
theorem getElem?_setStage {stage : Stage} {k : Nat}
    (hk : (network.setStage n stage).attempts[k]? = some a) :
    ∃ b, network.attempts[k]? = some b ∧ a = if n = k then { b with stage } else b := by
  simp only [setStage, List.getElem?_modify, Option.map_eq_map, Option.map_eq_some_iff] at hk
  obtain ⟨b, hb, rfl⟩ := hk
  exact ⟨b, hb, by split <;> rfl⟩

/-- An attempt that is brought to the stage it has come to stays as it is. -/
theorem setStage_self (ha : network.attempts[n]? = some a) :
    network.setStage n a.stage = network := by
  have hsame : network.attempts.modify n ({ · with stage := a.stage }) = network.attempts := by
    ext1 k
    rw [List.getElem?_modify]
    split
    · subst k
      simp [ha]
    · simp
  rw [setStage, hsame]

/-- All that can come of an event of an attempt: the socket has it; nothing; the connection of an
attempt that was given up is hung up; or the attempt is over and nobody is told, since it was given
up or failed by an error that does not come from the operating system. -/
theorem attemptEvent_cases (ha : network.attempts[n]? = some a) (he : e.attempt? = some n) :
    (∃ event, (network.attemptEvent n a e).1 = ⟨.done, [], some (.socket a.socket event)⟩ ∧
      ¬ a.IsDead ∧ a.stage.phase.Permits event ∧
      (network.attemptEvent n a e).2 = network.setStage n (a.stage.after event)) ∨
    ((network.attemptEvent n a e).1.seen = [] ∧ (network.attemptEvent n a e).1.delivery = none ∧
      (network.attemptEvent n a e).2 = network) ∨
    (a.stage = .pending ∧ a.abandoned = true ∧
      network.attemptEvent n a e = (⟨.done, [.hangUp n], none⟩, network.setStage n .up)) ∨
    (a.stage ≠ .over ∧ (a.abandoned = true ∨ e = .fail n .foreign) ∧
      network.attemptEvent n a e = (⟨.done, [], none⟩, network.setStage n .over)) := by
  obtain ⟨socket, stage, abandoned⟩ := a
  have hself := setStage_self ha
  cases e with
  | fail k ending =>
    cases he
    by_cases hforeign : ending = .foreign <;> cases stage <;> cases abandoned <;>
      simp [attemptEvent, Effect.ignored, Attempt.IsDead, Stage.phase, Stage.after, hforeign,
        Channel.Phase.Permits]
  | resolved k addresses => cases he
  | lookupFailed k foreign => cases he
  | _ =>
    cases he
    cases stage <;> cases abandoned <;>
      simp [attemptEvent, Effect.ignored, Attempt.IsDead, Stage.phase, Stage.after,
        Channel.Phase.Permits] <;> exact hself.symm

/-! ### What happens to lookups -/

variable {k : Nat} {host : String}

/-- A lookup that is pending comes to its end. -/
theorem receive_of_pending (hl : network.lookups[k]? = some { host }) (hk : e.lookup? = some k) :
    network.receive e = (⟨.done, [], (e.answer? host).map (.answer host)⟩, network.finish k) := by
  cases e with
  | resolved j addresses =>
    cases hk
    cases addresses <;> simp [receive, hl, lookupEvent, Event.answer?]
  | lookupFailed j foreign =>
    cases hk
    cases foreign <;> simp [receive, hl, lookupEvent, Event.answer?]
  | _ => cases hk

/-- Nothing comes of the end of a lookup that is not pending. -/
theorem receive_of_settled (hk : e.lookup? = some k)
    (hover : ∀ l, network.lookups[k]? = some l → l.pending = false) :
    ∃ outcome, network.receive e = (⟨outcome, [], Option.none⟩, network) := by
  cases e <;> cases hk
  all_goals
    cases hl : network.lookups[k]? with
    | none => exact ⟨.absent, by simp [receive, hl]⟩
    | some l => exact ⟨.ignored, by simp [receive, hl, lookupEvent, hover l hl, Effect.ignored]⟩

end Rendezvous.Network
