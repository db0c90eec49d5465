import Rendezvous.Proofs.Session.Restart.Lift
import Rendezvous.Proofs.Session.Veil.Twins

/-!
# What a session does regardless of payloads

Every function of a session comes to the same answer or the same fault on two machines that differ
at most in payloads, and leaves two such machines. There is one statement of this for each function,
proved by those of the functions it calls.
-/

namespace Rendezvous

namespace SessionM

open Machine

variable {α β : Type} {held held' : Bytes} {m m' : Machine}

/-- What two computations come to: the same answer or fault, and machines that differ at most in
payloads. -/
structure Matches (held held' : Bytes) (out out' : Except Fault α × Machine) : Prop where
  answer : out'.1 = out.1
  machines : Twin held held' out.2 out'.2

/-- Two computations that come to the same on two machines that differ at most in payloads, and
leave them so. -/
def Agree (held held' : Bytes) (x x' : SessionM α) (m m' : Machine) : Prop :=
  Twin held held' m m' → Matches held held' (x m) (x' m')

/-- A computation that is blind to payloads. -/
def IsBlind (held held' : Bytes) (x : SessionM α) : Prop := ∀ m m', Agree held held' x x m m'

/-- What a computation comes to, where its run is known. -/
theorem Ensures.of_eq {x : SessionM α} {Q : α → Machine → Prop} {E : Machine → Prop} {a : α}
    (h : Ensures x m Q E) (hrun : x m = (.ok a, m')) : Q a m' := by
  unfold Ensures at h
  rwa [hrun] at h

/-- What follows may rest on how the first computation ended. -/
theorem Matches.bind {x x' : SessionM α} {f f' : α → SessionM β}
    (hx : Matches held held' (x m) (x' m'))
    (hf : ∀ a n n', x m = (.ok a, n) → Agree held held' (f a) (f' a) n n') :
    Matches held held' ((x >>= f) m) ((x' >>= f') m') := by
  obtain ⟨hanswer, hafter⟩ := hx
  rw [bind_apply, bind_apply]
  rcases hrun : x m with ⟨e | a, n⟩ <;> rcases hrun' : x' m' with ⟨e' | a', n'⟩ <;>
    simp only [hrun, hrun'] at hanswer hafter ⊢ <;> cases hanswer
  · exact ⟨rfl, hafter⟩
  · exact hf a n n' hrun hafter

/-- Computations that match give the same reply and leave machines that differ at most in payloads.
-/
theorem Matches.runWith {x x' : SessionM Reply} (h : Matches held held' (x m) (x' m')) :
    (m'.runWith x').1 = (m.runWith x).1 ∧
      Twin held held' (m.runWith x).2 (m'.runWith x').2 := by
  obtain ⟨hanswer, hafter⟩ := h
  unfold Machine.runWith
  generalize x m = out at hanswer hafter
  generalize x' m' = out' at hanswer hafter
  rcases out with ⟨e | a, n⟩ <;> rcases out' with ⟨e' | a', n'⟩ <;> cases hanswer <;>
    exact ⟨rfl, hafter⟩

/-- One after another, the second given what the first comes to. -/
theorem Agree.bind {x x' : SessionM α} {f f' : α → SessionM β} (hx : Agree held held' x x' m m')
    (hf : ∀ a n n', x m = (.ok a, n) → Agree held held' (f a) (f' a) n n') :
    Agree held held' (x >>= f) (x' >>= f') m m' := fun hm ↦ (hx hm).bind hf

/-- One after another, both blind to payloads. -/
theorem IsBlind.bind {x : SessionM α} {f : α → SessionM β} (hx : IsBlind held held' x)
    (hf : ∀ a, IsBlind held held' (f a)) : IsBlind held held' (x >>= f) :=
  fun m m' ↦ (hx m m').bind fun a n n' _ ↦ hf a n n'

/-- A value by itself is blind to payloads. -/
theorem isBlind_pure (a : α) : IsBlind held held' (pure a) := fun _ _ hm ↦ ⟨rfl, hm⟩

/-- A fault is blind to payloads. -/
theorem isBlind_throw (f : Fault) : IsBlind held held' (throw f : SessionM α) :=
  fun _ _ hm ↦ ⟨rfl, hm⟩

/-- What is read of the machine has to be used alike. -/
theorem agree_get {f f' : Machine → SessionM β} (h : Agree held held' (f m) (f' m') m m') :
    Agree held held' (get >>= f) (get >>= f') m m' := h

/-- Looking at a machine is blind to payloads where what follows is. -/
theorem isBlind_get {f : Machine → SessionM β}
    (h : ∀ m m', Twin held held' m m' → Agree held held' (f m) (f m') m m') :
    IsBlind held held' (get >>= f) := fun m m' hm ↦ h m m' hm hm

/-- A change that is blind to payloads. -/
theorem isBlind_modify {f : Machine → Machine}
    (h : ∀ m m', Twin held held' m m' → Twin held held' (f m) (f m')) :
    IsBlind held held' (modify f) := fun m m' hm ↦ ⟨rfl, h m m' hm⟩

/-- Either branch, under the same condition. -/
theorem Agree.ite {p q : Prop} [Decidable p] [Decidable q] {x x' y y' : SessionM α} (hpq : q ↔ p)
    (hyes : p → Agree held held' x x' m m') (hno : ¬p → Agree held held' y y' m m') :
    Agree held held' (if p then x else y) (if q then x' else y') m m' := by
  by_cases hp : p
  · rw [if_pos hp, if_pos (hpq.2 hp)]
    exact hyes hp
  · rw [if_neg hp, if_neg fun hq ↦ hp (hpq.1 hq)]
    exact hno hp

/-- Either branch, both blind to payloads. -/
theorem IsBlind.ite {p : Prop} [Decidable p] {x y : SessionM α} (hx : IsBlind held held' x)
    (hy : IsBlind held held' y) : IsBlind held held' (if p then x else y) :=
  fun m m' ↦ Agree.ite Iff.rfl (fun _ ↦ hx m m') fun _ ↦ hy m m'

private theorem IsBlind.map {x : SessionM α} (hx : IsBlind held held' x) (f : α → β) :
    IsBlind held held' (f <$> x) := by
  rw [(bind_pure_comp f x).symm]
  exact hx.bind fun a ↦ isBlind_pure (f a)

/-- A value that is dropped was not looked at. -/
theorem IsBlind.discard {x : SessionM α} (hx : IsBlind held held' x) :
    IsBlind held held' (discard x) := hx.map _

/-! ### Small steps -/

/-- The phase tells of no payload. -/
theorem isBlind_phase : IsBlind held held' phase := by
  refine fun m m' hm ↦ ⟨?_, hm⟩
  cases hm with
  | intro hlinks hhosts => rfl

/-- Sessions that remember alike. -/
theorem agree_remember {f f' : Session → Session}
    (h : Twin held held' { m with session := f m.session } { m' with session := f' m'.session }) :
    Agree held held' (remember f) (remember f') m m' := fun _ ↦ ⟨rfl, h⟩

/-- What is remembered must leave the long poll alone, and must not depend on it. -/
theorem isBlind_remember {f : Session → Session}
    (hf : ∀ s notify, f { s with notify } = { f s with notify })  :
    IsBlind held held' (remember f) := by
  refine fun m m' hm ↦ agree_remember ?_ hm
  cases hm with
  | @intro notify host hlinks hhosts =>
    have hself : f m.session = { f m.session with notify := m.session.notify } := hf m.session _
    have hkept : (f m.session).notify = m.session.notify := by rw [hself]
    have hsame : f { m.session with notify } = { f m.session with notify } := hf m.session notify
    show Twin held held' { m with session := f m.session }
      { m with session := f { m.session with notify }, host }
    rw [hsame]
    exact .intro (hkept.symm ▸ hlinks) hhosts

private theorem isBlind_enter (p : Session.Phase) : IsBlind held held' (enter p) :=
  isBlind_remember (f := fun s ↦ { s with phase := p }) fun _ _ ↦ rfl

private theorem isBlind_requireText (n : Int) : IsBlind held held' (requireText n) :=
  (isBlind_throw _).ite (isBlind_pure _)

/-- A request is written blind to payloads that were received. -/
theorem isBlind_ofRequest (r : Except Wire.RequestError α) : IsBlind held held' (ofRequest r) := by
  cases r with
  | ok a => exact isBlind_pure a
  | error e => exact isBlind_throw _

/-- What is done alike with the command link is blind to payloads. -/
theorem isBlind_withCommand {absent : α}
    {f : CommandLink → Host Note → α × CommandLink × Host Note}
    (hf : ∀ c (h h' : Host Note), h.Twin h' → UsesAlike (f c h) (f c h')) :
    IsBlind held held' (withCommand absent f) := by
  intro m m' hm
  rw [withCommand_apply, withCommand_apply, hm.command]
  cases m.session.command with
  | none => exact ⟨rfl, hm⟩
  | some c =>
    have huses := hf c m.host m'.host hm.host
    exact ⟨congrArg Except.ok huses.answer, hm.putCommand huses.link huses.host⟩

/-- The use of twin links must leave them so. -/
theorem isBlind_withNotify {absent : α}
    {f : NotifyLink → Host Note → α × NotifyLink × Host Note}
    (hf : ∀ n n' (h h' : Host Note), NotifyLink.Twin held held' n n' → h.Twin h' →
      NotifyLink.UsesTwins held held' (f n h) (f n' h')) :
    IsBlind held held' (withNotify absent f) := by
  intro m m' hm
  rw [withNotify_apply, withNotify_apply]
  rcases hm.notify_cases with ⟨hnone, hnone'⟩ | ⟨n, n', hsome, hsome', hlink⟩
  · rw [hnone, hnone']
    exact ⟨rfl, hm⟩
  · have huses := hf n n' m.host m'.host hlink hm.host
    rw [hsome, hsome']
    exact ⟨congrArg Except.ok huses.answer, hm.putNotify huses.link huses.host⟩

private theorem isBlind_startExchange (what : Exchange) (request : Bytes) :
    IsBlind held held' (startExchange what request) := by
  apply isBlind_get
  intro m m' hm
  have haddress : m'.session.address = m.session.address := by rw [hm.session]
  rw [haddress]
  exact isBlind_withCommand (fun c _ _ ↦ c.start_alike what request m.session.address) m m'

private theorem agree_set {a a' : Machine} (h : Twin held held' a a') :
    Agree held held' (set a) (set a') m m' := fun _ ↦ ⟨rfl, h⟩

private theorem isBlind_startLookup (host : String) (port : Int) :
    IsBlind held held' (startLookup host port) := by
  apply isBlind_get
  intro m m' hm
  have hsame : m'.session.resolver.start? (m'.host.policy.resolves m'.host.moment) =
      m.session.resolver.start? (m.host.policy.resolves m.host.moment) := by
    rw [hm.session, hm.host.policy, hm.host.moment_eq]
  simp only [hsame]
  cases m.session.resolver.start? (m.host.policy.resolves m.host.moment) with
  | none => exact isBlind_pure false m m'
  | some resolver =>
    refine (agree_set ?_).bind fun _ n n' _ ↦ isBlind_pure true n n'
    cases hm with
    | intro hlinks hhosts => exact .intro hlinks (hhosts.ask _)

/-- Arming the retry is blind to payloads. -/
theorem isBlind_armRetry : IsBlind held held' armRetry := by
  apply isBlind_get
  intro m m' hm
  have hsame : m'.session.retry.arm? m'.host.timers = m.session.retry.arm? m.host.timers := by
    rw [hm.session, hm.host.timers]
  simp only [hsame]
  cases m.session.retry.arm? m.host.timers with
  | none => exact isBlind_pure _ m m'
  | some retry =>
    apply agree_set
    cases hm with
    | intro hlinks hhosts => exact .intro hlinks (hhosts.schedule retry.delay)

variable {tell : Event → SessionM Unit}

/-! ### Calls -/

/-- A way of telling that is blind to payloads. -/
def TellsBlindly (held held' : Bytes) (tell : Event → SessionM Unit) : Prop :=
  ∀ e e' m m', e.IsLike e' → Agree held held' (tell e) (tell e') m m'

/-- Telling of an event is blind to payloads. -/
theorem TellsBlindly.isBlind (htell : TellsBlindly held held' tell) (e : Event) :
    IsBlind held held' (tell e) := fun m m' ↦ htell e e m m' (.same e)

private theorem isBlind_reset : IsBlind held held' (modify Machine.reset) :=
  isBlind_modify fun _ _ hm ↦ hm.reset

/-- A session fails blind to payloads. -/
theorem isBlind_fail (htell : TellsBlindly held held' tell) : IsBlind held held' (fail tell) :=
  isBlind_reset.bind fun _ ↦ htell.isBlind .disconnected

/-- A session fails to reach its server blind to payloads. -/
theorem isBlind_failToConnect (htell : TellsBlindly held held' tell) :
    IsBlind held held' (failToConnect tell) :=
  isBlind_reset.bind fun _ ↦ htell.isBlind .connectionFailure

/-- Dialling is blind to payloads. -/
theorem isBlind_dial (htell : TellsBlindly held held' tell) : IsBlind held held' (dial tell) := by
  have hopen : IsBlind held held' (modify Machine.openLinks) :=
    isBlind_modify fun _ _ hm ↦ hm.openLinks
  refine hopen.bind fun _ ↦ isBlind_get fun m m' hm ↦ ?_
  rw [hm.session]
  refine IsBlind.bind (isBlind_ofRequest _) (fun request ↦ ?_) m m'
  refine (isBlind_startExchange _ _).bind fun started ↦ ?_
  apply IsBlind.ite
  · exact (isBlind_enter _).bind fun _ ↦ isBlind_pure _
  · exact (isBlind_failToConnect htell).bind fun _ ↦ isBlind_pure _

private theorem isBlind_connect (htell : TellsBlindly held held' tell) (server : Option String)
    (port : Option Int) (name : Option Text.Raw) :
    IsBlind held held' (connect tell server port name) := by
  refine isBlind_get fun m m' hm ↦ ?_
  rw [hm.config, hm.session]
  refine Agree.ite Iff.rfl (fun _ ↦ ?_) fun _ ↦ ?_
  · exact IsBlind.bind (htell.isBlind _) (fun _ ↦ isBlind_pure _) m m'
  · refine IsBlind.bind (isBlind_remember fun _ _ ↦ rfl) (fun _ ↦ ?_) m m'
    refine (isBlind_requireText _).bind fun _ ↦ IsBlind.ite ?_ (isBlind_dial htell)
    refine (isBlind_enter _).bind fun _ ↦ (isBlind_startLookup _ _).bind fun started ↦ ?_
    exact (isBlind_pure _).ite ((isBlind_failToConnect htell).bind fun _ ↦ isBlind_pure _)

private theorem isBlind_sendTo (htell : TellsBlindly held held' tell) (peer : Int)
    (payload : Except Wire.RequestError Bytes) :
    IsBlind held held' (sendTo tell peer payload) := by
  refine isBlind_get fun m m' hm ↦ ?_
  rw [hm.session]
  refine Agree.ite Iff.rfl (fun _ ↦ isBlind_pure _ m m') fun _ ↦ ?_
  refine Agree.ite Iff.rfl (fun _ ↦ ?_) fun _ ↦ ?_
  · exact IsBlind.bind (isBlind_requireText _) (fun _ ↦ isBlind_pure _) m m'
  · refine IsBlind.bind (isBlind_ofRequest _) (fun request ↦ ?_) m m'
    refine (isBlind_startExchange _ _).bind fun started ↦ ?_
    exact (isBlind_pure _).ite ((isBlind_fail htell).bind fun _ ↦ isBlind_pure _)

/-- Signing out is blind to payloads. -/
theorem isBlind_signOut (htell : TellsBlindly held held' tell) :
    IsBlind held held' (signOut tell) := by
  have hquiet : IsBlind held held' (modify fun m ↦ m.cancelRetry.cancelLookup.closeNotify) :=
    isBlind_modify fun _ _ hm ↦ hm.quiet
  refine isBlind_phase.bind fun phase ↦ (isBlind_pure _).ite (hquiet.bind fun _ ↦ ?_)
  refine isBlind_get fun m m' hm ↦ ?_
  rw [hm.session]
  refine Agree.ite Iff.rfl (fun _ ↦ ?_) fun _ ↦ ?_
  · exact IsBlind.bind (isBlind_enter _) (fun _ ↦ isBlind_pure _) m m'
  · refine Agree.ite Iff.rfl (fun _ ↦ ?_) fun _ ↦ ?_
    · exact IsBlind.bind (isBlind_fail htell) (fun _ ↦ isBlind_pure _) m m'
    · refine IsBlind.bind (isBlind_enter _) (fun _ ↦ ?_) m m'
      refine (isBlind_ofRequest _).bind fun request ↦ (isBlind_startExchange _ _).bind fun _ ↦ ?_
      exact (isBlind_pure _).ite ((isBlind_fail htell).bind fun _ ↦ isBlind_pure _)

/-- Every call is blind to payloads that were received. -/
theorem isBlind_perform (htell : TellsBlindly held held' tell) (c : Call) :
    IsBlind held held' (perform tell c) := by
  cases c with
  | connect server port name => exact (isBlind_connect htell server port name).map _
  | send peer text => exact (isBlind_sendTo htell peer _).map _
  | sendBytes peer payload => exact (isBlind_sendTo htell peer _).map _
  | hangUp peer => exact (isBlind_sendTo htell peer _).map _
  | signOut => exact (isBlind_signOut htell).map _
  | close => exact isBlind_reset.bind fun _ ↦ isBlind_pure _

/-- An observer that only listens is told the same of each. -/
theorem tellsBlindly_silent (depth : Nat) :
    TellsBlindly held held' (Observer.silent.tell depth) := by
  intro e e' m m' he hm
  rw [Observer.tell, Observer.tell]
  have htold : Agree held held' (set (m.note (.heard e m.session)))
      (set (m'.note (.heard e' m'.session))) m m' := agree_set (hm.note he _ _)
  refine agree_get (Agree.ite ?_ (fun _ ↦ htold.bind fun _ n n' _ ↦ ?_) fun _ ↦ ?_) hm
  · rw [hm.observed]
  · cases depth with
    | zero => exact isBlind_pure _ n n'
    | succ depth => exact isBlind_pure _ n n'
  · exact isBlind_pure _ m m'

end SessionM

end Rendezvous
