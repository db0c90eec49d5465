import Rendezvous.Session.Step

/-!
# Reasoning about computations of a session

What a computation comes to from a machine: a condition on its answer and the machine after it, and
one on the machine that a fault leaves. The equations take a computation apart; every function of
a session then has one statement of this form, which its callers use in place of its body.
-/

namespace Rendezvous

/-- The machine after a use of the command link. -/
def Machine.putCommand (m : Machine) (after : CommandLink × Host Note) : Machine :=
  { m with session := { m.session with command := some after.1 }, host := after.2 }

/-- The machine after a use of the notify link. -/
def Machine.putNotify (m : Machine) (after : NotifyLink × Host Note) : Machine :=
  { m with session := { m.session with notify := some after.1 }, host := after.2 }

/-- The new lines are those in front of the old log. -/
theorem Machine.newLines_of_append {m m' : Machine} {new : List (LogEntry Note)}
    (h : m'.host.log = new ++ m.host.log) : m.newLines m' = new := by
  simp [newLines, h]

/-- A notify link put back where it was taken from changes nothing. -/
theorem Machine.putNotify_of_eq {m : Machine} {n : NotifyLink} (h : m.session.notify = some n) :
    m.putNotify (n, m.host) = m := by
  show ({ m with session := { m.session with notify := some n } } : Machine) = m
  rw [← h]

namespace SessionM

variable {α β : Type} {m : Machine} {Q Q' : α → Machine → Prop} {E E' : Machine → Prop}

/-- From `m`, the computation ends with an answer and a machine as in `Q`, or at a fault with a
machine as in `E`. -/
def Ensures (x : SessionM α) (m : Machine) (Q : α → Machine → Prop) (E : Machine → Prop) : Prop :=
  match x m with
  | (.ok a, after) => Q a after
  | (.error _, after) => E after

/-- More may be ensured than is asked for. -/
theorem Ensures.mono {x : SessionM α} (h : Ensures x m Q E) (hQ : ∀ a after, Q a after → Q' a after)
    (hE : ∀ after, E after → E' after) : Ensures x m Q' E' := by
  unfold Ensures at h ⊢
  split
  · next heq =>
    rw [heq] at h
    exact hQ _ _ h
  · next heq =>
    rw [heq] at h
    exact hE _ h

/-- Where no fault comes to pass, every condition on what one leaves is met. -/
theorem Ensures.of_steady {x : SessionM α} (h : Ensures x m Q fun _ ↦ False) : Ensures x m Q E :=
  h.mono (fun _ _ ↦ id) fun _ ↦ False.elim

/-- What a computation comes to: an answer and a machine as in `Q`, or a fault and one as in `E`. -/
theorem Ensures.result {x : SessionM α} (h : Ensures x m Q E) :
    (∃ a, (x m).1 = .ok a ∧ Q a (x m).2) ∨ ∃ f, (x m).1 = .error f ∧ E (x m).2 := by
  unfold Ensures at h
  split at h <;> next heq =>
    rw [heq]
    first | exact .inl ⟨_, rfl, h⟩ | exact .inr ⟨_, rfl, h⟩

/-- What a step leaves, where the condition on the machine is the same however it ends. -/
theorem Ensures.runWith {x : SessionM Reply} {P : Machine → Prop}
    (h : Ensures x m (fun _ ↦ P) P) : P (m.runWith x).2 := by
  unfold Ensures at h
  unfold Machine.runWith
  split <;> next heq => rwa [heq] at h

/-- What a step replies and leaves. -/
theorem Ensures.runWith_cases {x : SessionM Reply} {Q : Reply → Machine → Prop}
    (h : Ensures x m Q E) : Q (m.runWith x).1 (m.runWith x).2 ∨
      (∃ f, (m.runWith x).1 = .fault f) ∧ E (m.runWith x).2 := by
  unfold Ensures at h
  unfold Machine.runWith
  split <;> next heq =>
    rw [heq] at h
    first | exact .inl h | exact .inr ⟨⟨_, rfl⟩, h⟩

/-- What a step comes to, where that is known and no fault comes to pass. -/
theorem Ensures.runWith_eq {x : SessionM Reply} {r : Reply} {m' : Machine}
    (h : Ensures x m (fun reply after ↦ reply = r ∧ after = m') fun _ ↦ False) :
    m.runWith x = (r, m') := by
  rcases h.runWith_cases with ⟨hreply, hafter⟩ | ⟨-, hfault⟩
  · exact Prod.ext hreply hafter
  · exact hfault.elim

/-- A value by itself changes nothing. -/
@[simp] theorem ensures_pure {a : α} : Ensures (pure a) m Q E ↔ Q a m := Iff.rfl

/-- A fault leaves the machine as it is. -/
@[simp] theorem ensures_throw {f : Fault} : Ensures (throw f : SessionM α) m Q E ↔ E m := Iff.rfl

/-- Looking at the machine changes nothing. -/
@[simp] theorem ensures_get {Q : Machine → Machine → Prop} : Ensures get m Q E ↔ Q m m := Iff.rfl

/-- The machine is replaced. -/
@[simp] theorem ensures_set {Q : PUnit → Machine → Prop} {after : Machine} :
    Ensures (set after) m Q E ↔ Q ⟨⟩ after := Iff.rfl

/-- A change of the machine. -/
@[simp] theorem ensures_modify {Q : PUnit → Machine → Prop} {f : Machine → Machine} :
    Ensures (modify f) m Q E ↔ Q ⟨⟩ (f m) := Iff.rfl

/-- One computation after another, as far as there is no fault. -/
theorem bind_apply (x : SessionM α) (f : α → SessionM β) (m : Machine) :
    (x >>= f) m = match x m with
      | (.ok a, after) => f a after
      | (.error e, after) => (.error e, after) := by
  simp only [bind, ExceptT.bind, ExceptT.mk, ExceptT.bindCont, StateT.bind]
  cases x m with
  | mk r after => cases r <;> rfl

/-- One after another. A fault in the first ends both. -/
@[simp] theorem ensures_bind {x : SessionM α} {f : α → SessionM β} {Q : β → Machine → Prop} :
    Ensures (x >>= f) m Q E ↔ Ensures x m (fun a after ↦ Ensures (f a) after Q E) E := by
  unfold Ensures
  rw [bind_apply]
  generalize x m = out
  rcases out with ⟨_ | _, _⟩ <;> rfl

/-- The value is changed, and the machine stays. -/
@[simp] theorem ensures_map {x : SessionM α} {f : α → β} {Q : β → Machine → Prop} :
    Ensures (f <$> x) m Q E ↔ Ensures x m (fun a after ↦ Q (f a) after) E := by
  have hmap : f <$> x = x >>= fun a ↦ pure (f a) := (bind_pure_comp f x).symm
  rw [hmap, ensures_bind]
  rfl

/-- The value is dropped, and the machine stays. -/
@[simp] theorem ensures_discard {x : SessionM α} {Q : PUnit → Machine → Prop} :
    Ensures (discard x) m Q E ↔ Ensures x m (fun _ after ↦ Q ⟨⟩ after) E :=
  ensures_map

/-- What a computation does instead where another stops at a fault. -/
@[simp] theorem ensures_tryCatch {x y : SessionM α} :
    Ensures (tryCatch x fun _ ↦ y) m Q E ↔ Ensures x m Q fun after ↦ Ensures y after Q E := by
  have hcatch : (tryCatch x fun _ ↦ y : SessionM α) m = match x m with
      | (.ok a, after) => (.ok a, after)
      | (.error _, after) => y after := by
    simp only [tryCatch, tryCatchThe, MonadExceptOf.tryCatch, ExceptT.tryCatch, ExceptT.mk, bind,
      StateT.bind]
    cases x m with
    | mk r after => cases r <;> rfl
  unfold Ensures
  rw [hcatch]
  generalize x m = out
  rcases out with ⟨_ | _, _⟩ <;> rfl

/-- Either branch, under its condition. -/
theorem ensures_ite {p : Prop} [Decidable p] {x y : SessionM α} :
    Ensures (if p then x else y) m Q E ↔ (p → Ensures x m Q E) ∧ (¬p → Ensures y m Q E) := by
  split <;> simp_all

/-! ### Small steps -/

/-- Looking at the phase changes nothing. -/
@[simp] theorem ensures_phase {Q : Session.Phase → Machine → Prop} :
    Ensures phase m Q E ↔ Q m.session.phase m := Iff.rfl

/-- Entering a phase sets it. -/
@[simp] theorem ensures_enter {Q : Unit → Machine → Prop} {p : Session.Phase} :
    Ensures (enter p) m Q E ↔ Q ⟨⟩ (m.setPhase p) := Iff.rfl

/-- A change of what the session remembers. -/
@[simp] theorem ensures_remember {Q : Unit → Machine → Prop} {f : Session → Session} :
    Ensures (remember f) m Q E ↔ Q ⟨⟩ { m with session := f m.session } := Iff.rfl

-- From here on only the equations take a computation apart; nothing runs it.
attribute [irreducible] Ensures

/-- An integer that cannot be written is a fault. -/
theorem ensures_requireText {Q : Unit → Machine → Prop} {n : Int} :
    Ensures (requireText n) m Q E ↔
      ((Numeral.integerText? n).isSome → Q ⟨⟩ m) ∧ (Numeral.integerText? n = none → E m) := by
  rw [requireText]
  cases Numeral.integerText? n <;> simp

/-- A request that has no bytes is a fault. -/
theorem ensures_ofRequest {r : Except Wire.RequestError α} :
    Ensures (ofRequest r) m Q E ↔
      (∀ a, r = .ok a → Q a m) ∧ (∀ e, r = .error e → E m) := by
  cases r <;> simp [ofRequest]

/-- A request that has bytes gives them. -/
theorem ensures_ofRequest_ok {a : α} : Ensures (ofRequest (.ok a)) m Q E ↔ Q a m := by
  rw [ensures_ofRequest]
  simp

/-- What is done with the command link, if there is one. -/
theorem ensures_withCommand {absent : α}
    {f : CommandLink → Host Note → α × CommandLink × Host Note} :
    Ensures (withCommand absent f) m Q E ↔ (m.session.command = none → Q absent m) ∧
      ∀ link, m.session.command = some link →
        Q (f link m.host).1 (m.putCommand (f link m.host).2) := by
  rw [withCommand, ensures_bind, ensures_get]
  cases m.session.command with
  | none => simp
  | some link => simp [Machine.putCommand]

/-- What is done with a command link that is there. -/
theorem ensures_withCommand_of_eq {absent : α}
    {f : CommandLink → Host Note → α × CommandLink × Host Note} {link : CommandLink}
    (h : m.session.command = some link) :
    Ensures (withCommand absent f) m Q E ↔
      Q (f link m.host).1 (m.putCommand (f link m.host).2) := by
  rw [ensures_withCommand, h]
  simp

/-- What is done with the notify link, if there is one. -/
theorem ensures_withNotify {absent : α}
    {f : NotifyLink → Host Note → α × NotifyLink × Host Note} :
    Ensures (withNotify absent f) m Q E ↔ (m.session.notify = none → Q absent m) ∧
      ∀ link, m.session.notify = some link →
        Q (f link m.host).1 (m.putNotify (f link m.host).2) := by
  rw [withNotify, ensures_bind, ensures_get]
  cases m.session.notify with
  | none => simp
  | some link => simp [Machine.putNotify]

/-- What is done with a notify link that is there. -/
theorem ensures_withNotify_of_eq {absent : α}
    {f : NotifyLink → Host Note → α × NotifyLink × Host Note} {link : NotifyLink}
    (h : m.session.notify = some link) :
    Ensures (withNotify absent f) m Q E ↔
      Q (f link m.host).1 (m.putNotify (f link m.host).2) := by
  rw [ensures_withNotify, h]
  simp

/-- An exchange is started over the command link, if there is one. -/
theorem ensures_startExchange {Q : Bool → Machine → Prop} {what : Exchange} {request : Bytes} :
    Ensures (startExchange what request) m Q E ↔ (m.session.command = none → Q false m) ∧
      ∀ link, m.session.command = some link →
        Q (link.start what request m.session.address m.host).1
          (m.putCommand (link.start what request m.session.address m.host).2) := by
  rw [startExchange, ensures_bind, ensures_get, ensures_withCommand]

/-- An exchange is started over a command link that is there. -/
theorem ensures_startExchange_of_eq {Q : Bool → Machine → Prop} {what : Exchange} {request : Bytes}
    {link : CommandLink} (h : m.session.command = some link) :
    Ensures (startExchange what request) m Q E ↔
      Q (link.start what request m.session.address m.host).1
        (m.putCommand (link.start what request m.session.address m.host).2) := by
  rw [startExchange, ensures_bind, ensures_get, ensures_withCommand_of_eq h]

/-- A lookup is started where the resolver is free and the host grants it. -/
theorem ensures_startLookup {Q : Bool → Machine → Prop} {host : String} {port : Int} :
    Ensures (startLookup host port) m Q E ↔
      (m.session.resolver.start? (m.host.policy.resolves m.host.moment) = none → Q false m) ∧
      ∀ resolver,
        m.session.resolver.start? (m.host.policy.resolves m.host.moment) = some resolver →
        Q true { m with
          session := { m.session with resolver }
          host := m.host.ask (.lookup host port) } := by
  rw [startLookup, ensures_bind, ensures_get]
  cases m.session.resolver.start? (m.host.policy.resolves m.host.moment) <;> simp

private theorem ensures_wait {tell : Event → SessionM Unit} {P R E : Machine → Prop}
    {f : NotifyLink → Host Note → Except Wire.RequestError Bool × NotifyLink × Host Note}
    (hfail : ∀ m', P m' → Ensures (fail tell) m' (fun _ ↦ R) E) (hplaced : ∀ m', P m' → R m')
    (hfault : ∀ m', P m' → E m') (habsent : P m)
    (hlink : ∀ link, m.session.notify = some link → P (m.putNotify (f link m.host).2)) :
    Ensures (do if !(← ofRequest (← withNotify (.ok false) f)) then fail tell) m
      (fun _ ↦ R) E := by
  simp only [ensures_bind, ensures_withNotify, ensures_ofRequest, ensures_ite, ensures_pure]
  have hrest (answer : Except Wire.RequestError Bool) {m' : Machine} (h : P m') :
      (∀ placed, answer = .ok placed → ((!placed) = true → Ensures (fail tell) m' (fun _ ↦ R) E) ∧
        (¬ (!placed) = true → R m')) ∧ ∀ e, answer = .error e → E m' :=
    ⟨fun _ _ ↦ ⟨fun _ ↦ hfail m' h, fun _ ↦ hplaced m' h⟩, fun _ _ ↦ hfault m' h⟩
  exact ⟨fun _ ↦ hrest _ habsent, fun link hnotify ↦ hrest _ (hlink link hnotify)⟩

/-- A wait is written over the notify link, if there is one, or the session fails. -/
theorem ensures_startWait {tell : Event → SessionM Unit} {P R E : Machine → Prop}
    (hfail : ∀ m', P m' → Ensures (fail tell) m' (fun _ ↦ R) E) (hplaced : ∀ m', P m' → R m')
    (hfault : ∀ m', P m' → E m') (habsent : P m)
    (hlink : ∀ link, m.session.notify = some link →
      P (m.putNotify (link.issueWait m.session.selfId m.host).2)) :
    Ensures (startWait tell) m (fun _ ↦ R) E := by
  rw [startWait, ensures_bind, ensures_get]
  exact ensures_wait hfail hplaced hfault habsent hlink

/-- The next wait is put in place over the notify link, if there is one, or the session fails. -/
theorem ensures_rearmWait {tell : Event → SessionM Unit} {P R E : Machine → Prop}
    (hfail : ∀ m', P m' → Ensures (fail tell) m' (fun _ ↦ R) E) (hplaced : ∀ m', P m' → R m')
    (hfault : ∀ m', P m' → E m') (habsent : P m)
    (hlink : ∀ link, m.session.notify = some link →
      P (m.putNotify (link.rearm m.session.selfId m.session.address m.host).2)) :
    Ensures (rearmWait tell) m (fun _ ↦ R) E := by
  rw [rearmWait, ensures_bind, ensures_get]
  exact ensures_wait hfail hplaced hfault habsent hlink

/-- Arming the retry takes a timer unless one is armed. -/
theorem ensures_armRetry {Q : Unit → Machine → Prop} :
    Ensures armRetry m Q E ↔
      (m.session.retry.arm? m.host.timers = none → Q ⟨⟩ m) ∧
      ∀ retry, m.session.retry.arm? m.host.timers = some retry →
        Q ⟨⟩ { m with
          session := { m.session with retry }
          host := (m.host.schedule retry.delay).2 } := by
  rw [armRetry, ensures_bind, ensures_get]
  cases m.session.retry.arm? m.host.timers <;> simp

end SessionM

end Rendezvous
