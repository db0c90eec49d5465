import Rendezvous.Proofs.Session.Logic
import Rendezvous.Proofs.Session.Machine
import Rendezvous.Proofs.Session.Restart.Above

/-!
# What a session does on a host with a past

Every part of a session does on a host that was in use before what it does on an unused one, with
shifted numbers: it comes to the same answer or the same fault, and leaves the same machine. So
nothing of the past has a part in it.
-/

namespace Rendezvous

namespace SessionM

variable {α β : Type} {base : Host Note} {m : Machine}

/-- One computation comes to the same above a host as another one without it. -/
def Lifts (base : Host Note) (x y : SessionM α) (m : Machine) : Prop :=
  m.host.Follows base → y (m.above base) = ((x m).1, (x m).2.above base) ∧
    (x m).2.host.Follows base

/-- A computation that knows nothing of the past of its host. -/
def IsFresh (base : Host Note) (x : SessionM α) : Prop := ∀ m, Lifts base x x m

/-- One after another. -/
theorem Lifts.bind {x y : SessionM α} {f g : α → SessionM β} (hx : Lifts base x y m)
    (hf : ∀ a m', Lifts base (f a) (g a) m') : Lifts base (x >>= f) (y >>= g) m := by
  intro hfollows
  obtain ⟨hanswer, hafter⟩ := hx hfollows
  rw [bind_apply, bind_apply, hanswer]
  rcases hrun : x m with ⟨e | a, after⟩
  · rw [hrun] at hafter
    exact ⟨rfl, hafter⟩
  · rw [hrun] at hafter
    exact hf a after hafter

/-- One after another, neither of which knows of the past. -/
theorem IsFresh.bind {x : SessionM α} {f : α → SessionM β} (hx : IsFresh base x)
    (hf : ∀ a, IsFresh base (f a)) : IsFresh base (x >>= f) :=
  fun m ↦ (hx m).bind fun a ↦ hf a

/-- A value by itself knows nothing of the past. -/
theorem isFresh_pure (a : α) : IsFresh base (pure a) := fun _ hfollows ↦ ⟨rfl, hfollows⟩

/-- A fault knows nothing of the past. -/
theorem isFresh_throw (f : Fault) : IsFresh base (throw f : SessionM α) :=
  fun _ hfollows ↦ ⟨rfl, hfollows⟩

/-- What is read of the machine has to be used alike. -/
theorem lifts_get {f g : Machine → SessionM β} (h : Lifts base (f m) (g (m.above base)) m) :
    Lifts base (get >>= f) (get >>= g) m := h

/-- A change that comes to the same above a host. -/
theorem lifts_modify {f g : Machine → Machine} (hsame : g (m.above base) = (f m).above base)
    (hretains : m.host.Retains (f m).host) : Lifts base (modify f) (modify g) m := by
  intro hfollows
  exact ⟨congrArg (Prod.mk (Except.ok PUnit.unit)) hsame, hfollows.of_retains hretains⟩

private theorem lifts_set {m' m'' : Machine} (hsame : m'' = m'.above base)
    (hretains : m.host.Follows base → m'.host.Follows base) : Lifts base (set m') (set m'') m := by
  intro hfollows
  subst hsame
  exact ⟨rfl, hretains hfollows⟩

/-- Either branch, under the same condition. -/
theorem Lifts.ite {p q : Prop} [Decidable p] [Decidable q] {x x' y y' : SessionM α} (hpq : p ↔ q)
    (hyes : p → Lifts base x y m) (hno : ¬p → Lifts base x' y' m) :
    Lifts base (if p then x else x') (if q then y else y') m := by
  by_cases hp : p
  · rw [if_pos hp, if_pos (hpq.1 hp)]
    exact hyes hp
  · rw [if_neg hp, if_neg fun hq ↦ hp (hpq.2 hq)]
    exact hno hp

private theorem IsFresh.ite {p : Prop} [Decidable p] {x y : SessionM α} (hx : IsFresh base x)
    (hy : IsFresh base y) : IsFresh base (if p then x else y) :=
  fun m ↦ Lifts.ite Iff.rfl (fun _ ↦ hx m) fun _ ↦ hy m

private theorem IsFresh.discard {x : SessionM α} (hx : IsFresh base x) :
    IsFresh base (discard x) := by
  have hdiscard : (Functor.discard x : SessionM PUnit) = x >>= fun _ ↦ pure ⟨⟩ :=
    (bind_pure_comp (fun _ ↦ PUnit.unit) x).symm
  rw [hdiscard]
  exact hx.bind fun _ ↦ isFresh_pure _

private theorem IsFresh.map {x : SessionM α} (hx : IsFresh base x) (f : α → β) :
    IsFresh base (f <$> x) := by
  rw [(bind_pure_comp f x).symm]
  exact hx.bind fun a ↦ isFresh_pure (f a)

/-! ### Small steps -/

private theorem isFresh_phase : IsFresh base phase := fun _ hfollows ↦ ⟨rfl, hfollows⟩

private theorem isFresh_enter (p : Session.Phase) : IsFresh base (enter p) :=
  fun _ ↦ lifts_modify rfl (.refl _)

private theorem isFresh_requireText (n : Int) : IsFresh base (requireText n) :=
  (isFresh_throw _).ite (isFresh_pure _)

private theorem isFresh_ofRequest (r : Except Wire.RequestError α) :
    IsFresh base (ofRequest r) := by
  cases r with
  | ok a => exact isFresh_pure a
  | error e => exact isFresh_throw _

/-- What is remembered has to be shifted alike. -/
theorem lifts_remember {f g : Session → Session}
    (hsame : g (m.session.shift base.offset) = (f m.session).shift base.offset) :
    Lifts base (remember f) (remember g) m := by
  apply lifts_modify _ (.refl _)
  show { m.above base with session := g (m.session.shift base.offset) } = _
  rw [hsame]
  rfl

/-- What is done with the command link, written out. -/
theorem withCommand_apply (absent : α)
    (f : CommandLink → Host Note → α × CommandLink × Host Note) (m : Machine) :
    withCommand absent f m = match m.session.command with
      | none => (.ok absent, m)
      | some c => (.ok (f c m.host).1, m.putCommand (f c m.host).2) := by
  rw [withCommand, bind_apply]
  show (match m.session.command with | none => _ | some link => _ : SessionM α) m = _
  cases m.session.command <;> rfl

/-- What is done with the notify link, written out. -/
theorem withNotify_apply (absent : α)
    (f : NotifyLink → Host Note → α × NotifyLink × Host Note) (m : Machine) :
    withNotify absent f m = match m.session.notify with
      | none => (.ok absent, m)
      | some n => (.ok (f n m.host).1, m.putNotify (f n m.host).2) := by
  rw [withNotify, bind_apply]
  show (match m.session.notify with | none => _ | some link => _ : SessionM α) m = _
  cases m.session.notify <;> rfl

private theorem isFresh_withCommand {absent : α}
    {f : CommandLink → Host Note → α × CommandLink × Host Note}
    (hf : ∀ c (h : Host Note), h.Follows base → f (c.shift base.offset) (h.above base) =
      ((f c h).1, (f c h).2.1.shift base.offset, (f c h).2.2.above base))
    (hretains : ∀ c (h : Host Note), h.Retains (f c h).2.2) :
    IsFresh base (withCommand absent f) := by
  intro m hfollows
  have hshift : (m.above base).session.command =
      m.session.command.map (CommandLink.shift base.offset) := rfl
  rw [withCommand_apply, withCommand_apply, hshift]
  cases hc : m.session.command with
  | none => exact ⟨rfl, hfollows⟩
  | some c =>
    have hsame := hf c m.host hfollows
    refine ⟨?_, hfollows.of_retains (hretains c m.host)⟩
    show (Except.ok (f (c.shift base.offset) (m.host.above base)).1,
      (m.above base).putCommand (f (c.shift base.offset) (m.host.above base)).2) = _
    rw [hsame]
    rfl

private theorem isFresh_withNotify {absent : α}
    {f : NotifyLink → Host Note → α × NotifyLink × Host Note}
    (hf : ∀ n (h : Host Note), h.Follows base → f (n.shift base.offset) (h.above base) =
      ((f n h).1, (f n h).2.1.shift base.offset, (f n h).2.2.above base))
    (hretains : ∀ n (h : Host Note), h.Retains (f n h).2.2) :
    IsFresh base (withNotify absent f) := by
  intro m hfollows
  have hshift : (m.above base).session.notify =
      m.session.notify.map (NotifyLink.shift base.offset) := rfl
  rw [withNotify_apply, withNotify_apply, hshift]
  cases hn : m.session.notify with
  | none => exact ⟨rfl, hfollows⟩
  | some n =>
    have hsame := hf n m.host hfollows
    refine ⟨?_, hfollows.of_retains (hretains n m.host)⟩
    show (Except.ok (f (n.shift base.offset) (m.host.above base)).1,
      (m.above base).putNotify (f (n.shift base.offset) (m.host.above base)).2) = _
    rw [hsame]
    rfl

private theorem isFresh_startExchange (what : Exchange) (request : Bytes) :
    IsFresh base (startExchange what request) :=
  fun m ↦ lifts_get <| isFresh_withCommand
    (fun c _ hfollows ↦ c.start_above hfollows what request m.session.address)
    (fun c h ↦ (c.remains_start what request m.session.address h).host) m

private theorem isFresh_startLookup (host : String) (port : Int) :
    IsFresh base (startLookup host port) := by
  intro m hfollows
  have hsame : (m.above base).session.resolver.start?
      ((m.above base).host.policy.resolves (m.above base).host.moment) =
      m.session.resolver.start? (m.host.policy.resolves m.host.moment) :=
    congrArg _ (Host.resolves_above hfollows)
  rw [startLookup]
  apply lifts_get _ hfollows
  simp only [hsame]
  cases m.session.resolver.start? (m.host.policy.resolves m.host.moment) with
  | none => exact isFresh_pure false m
  | some resolver =>
    apply Lifts.bind _ fun _ ↦ isFresh_pure true
    exact lifts_set rfl fun h ↦ h

private theorem isFresh_armRetry : IsFresh base armRetry := by
  intro m
  have hshift : (m.above base).session.retry.arm? (m.above base).host.timers =
      (m.session.retry.arm? m.host.timers).map (RetryTimer.shift base.offset) :=
    m.session.retry.arm?_shift base.offset m.host.timers
  apply lifts_get
  rw [hshift]
  cases m.session.retry.arm? m.host.timers with
  | none => exact isFresh_pure _ m
  | some retry =>
    exact lifts_set rfl fun h ↦ h

variable {tell : Event → SessionM Unit}

/-! ### Calls -/

/-- A way of telling that knows nothing of the past. -/
def TellsFresh (base : Host Note) (tell : Event → SessionM Unit) : Prop :=
  ∀ e, IsFresh base (tell e)

private theorem isFresh_reset : IsFresh base (modify Machine.reset) :=
  fun m ↦ lifts_modify m.reset_above m.retains_reset

private theorem isFresh_fail (htell : TellsFresh base tell) : IsFresh base (fail tell) :=
  isFresh_reset.bind fun _ ↦ htell .disconnected

private theorem isFresh_failToConnect (htell : TellsFresh base tell) :
    IsFresh base (failToConnect tell) :=
  isFresh_reset.bind fun _ ↦ htell .connectionFailure

/-- Dialling knows nothing of the past. -/
theorem isFresh_dial (htell : TellsFresh base tell) : IsFresh base (dial tell) := by
  have hopen : IsFresh base (modify Machine.openLinks) := fun m hfollows ↦
    ⟨congrArg (Prod.mk (Except.ok PUnit.unit)) m.openLinks_above,
      m.retains_closeLinks.policy.trans hfollows⟩
  refine hopen.bind fun _ m ↦ lifts_get ?_
  refine IsFresh.bind (isFresh_ofRequest _) (fun request ↦ ?_) m
  refine (isFresh_startExchange _ _).bind fun started ↦ ?_
  apply IsFresh.ite
  · exact (isFresh_enter _).bind fun _ ↦ isFresh_pure _
  · exact (isFresh_failToConnect htell).bind fun _ ↦ isFresh_pure _

private theorem isFresh_connect (htell : TellsFresh base tell) (server : Option String)
    (port : Option Int) (name : Option Text.Raw) :
    IsFresh base (connect tell server port name) := by
  refine fun m ↦ lifts_get ?_
  refine Lifts.ite Iff.rfl (fun _ ↦ ?_) fun _ ↦ ?_
  · exact IsFresh.bind (htell _) (fun _ ↦ isFresh_pure _) m
  · refine Lifts.bind (lifts_remember rfl) fun _ m' ↦ ?_
    refine IsFresh.bind (isFresh_requireText _) (fun _ ↦ ?_) m'
    refine IsFresh.ite ?_ (isFresh_dial htell)
    refine (isFresh_enter _).bind fun _ ↦ (isFresh_startLookup _ _).bind fun started ↦ ?_
    exact (isFresh_pure _).ite ((isFresh_failToConnect htell).bind fun _ ↦ isFresh_pure _)

/-- A link is busy whatever number its socket has. -/
theorem any_isBusy_shift (s : Session) (d : Offset) :
    (s.shift d).command.any CommandLink.isBusy = s.command.any CommandLink.isBusy := by
  rw [Session.shift]
  cases s.command <;> rfl

private theorem isFresh_sendTo (htell : TellsFresh base tell) (peer : Int)
    (payload : Except Wire.RequestError Bytes) :
    IsFresh base (sendTo tell peer payload) := by
  refine fun m ↦ lifts_get ?_
  refine Lifts.ite Iff.rfl (fun _ ↦ isFresh_pure _ m) fun _ ↦ ?_
  refine Lifts.ite ?_ (fun _ ↦ ?_) fun _ ↦ ?_
  · exact any_isBusy_shift m.session base.offset ▸ Iff.rfl
  · exact IsFresh.bind (isFresh_requireText _) (fun _ ↦ isFresh_pure _) m
  · refine IsFresh.bind (isFresh_ofRequest _) (fun request ↦ ?_) m
    refine (isFresh_startExchange _ _).bind fun started ↦ ?_
    exact (isFresh_pure _).ite ((isFresh_fail htell).bind fun _ ↦ isFresh_pure _)

private theorem isFresh_signOut (htell : TellsFresh base tell) : IsFresh base (signOut tell) := by
  have hquiet : IsFresh base (modify fun m ↦ m.cancelRetry.cancelLookup.closeNotify) := by
    refine fun m ↦ lifts_modify ?_ m.retains_quiet
    rw [Machine.cancelRetry_above, Machine.cancelLookup_above, Machine.closeNotify_above]
  refine isFresh_phase.bind fun phase ↦ (isFresh_pure _).ite (hquiet.bind fun _ ↦ ?_)
  refine fun m ↦ lifts_get ?_
  refine Lifts.ite ?_ (fun _ ↦ ?_) fun _ ↦ ?_
  · exact any_isBusy_shift m.session base.offset ▸ Iff.rfl
  · exact IsFresh.bind (isFresh_enter _) (fun _ ↦ isFresh_pure _) m
  · refine Lifts.ite Iff.rfl (fun _ ↦ ?_) fun _ ↦ ?_
    · exact IsFresh.bind (isFresh_fail htell) (fun _ ↦ isFresh_pure _) m
    · refine IsFresh.bind (isFresh_enter _) (fun _ ↦ ?_) m
      refine (isFresh_ofRequest _).bind fun request ↦ (isFresh_startExchange _ _).bind fun _ ↦ ?_
      exact (isFresh_pure _).ite ((isFresh_fail htell).bind fun _ ↦ isFresh_pure _)

/-- No call knows anything of the past. -/
theorem isFresh_perform (htell : TellsFresh base tell) (c : Call) :
    IsFresh base (perform tell c) := by
  cases c with
  | connect server port name => exact (isFresh_connect htell server port name).map _
  | send peer text => exact (isFresh_sendTo htell peer _).map _
  | sendBytes peer payload => exact (isFresh_sendTo htell peer _).map _
  | hangUp peer => exact (isFresh_sendTo htell peer _).map _
  | signOut => exact (isFresh_signOut htell).map _
  | close => exact isFresh_reset.bind fun _ ↦ isFresh_pure _

/-! ### The command link -/

private theorem isFresh_writeRequest (htell : TellsFresh base tell) :
    IsFresh base (writeRequest tell) := by
  have hflush : IsFresh base (withCommand .idle CommandLink.flush) :=
    isFresh_withCommand (fun c _ hfollows ↦ c.flush_above hfollows)
      fun c h ↦ (c.remains_flush h).host
  refine hflush.bind fun flushed ↦ ?_
  cases flushed with
  | failed => exact isFresh_fail htell
  | idle => exact isFresh_pure _
  | written size => exact isFresh_pure _

private theorem isFresh_announce (htell : TellsFresh base tell) (listed : List Peer.Entry) :
    IsFresh base (announce tell listed) := by
  induction listed with
  | nil => exact isFresh_phase.bind fun _ ↦ (htell _).ite (isFresh_pure _)
  | cons entry rest ih =>
    exact isFresh_phase.bind fun _ ↦ ((htell _).bind fun _ ↦ ih).ite (isFresh_pure _)

private theorem isFresh_acceptSignIn (htell : TellsFresh base tell) (response : Wire.Response) :
    IsFresh base (acceptSignIn tell response) := by
  refine (isFresh_fail htell).ite ?_
  cases response.peerId? with
  | none => exact isFresh_fail htell
  | some id =>
    refine (isFresh_fail htell).ite fun m ↦ lifts_get ?_
    refine Lifts.bind (lifts_remember rfl) fun _ m' ↦ ?_
    refine IsFresh.bind (isFresh_withNotify ?_ ?_) (fun dialled ↦ ?_) m'
    · intro n h hfollows
      have hconnect := Host.connect_above hfollows n.socket (m.session.assign id).address
      exact congrArg (fun out : Bool × Host Note ↦ (out.1, n.shift base.offset, out.2)) hconnect
    · exact fun n h ↦ h.retains_connect _ _
    · exact (isFresh_announce htell _).ite (isFresh_fail htell)

private theorem isFresh_acceptRelay (htell : TellsFresh base tell) (response : Wire.Response) :
    IsFresh base (acceptRelay tell response) :=
  (htell _).ite (isFresh_fail htell)

private theorem isFresh_acceptDeferred (htell : TellsFresh base tell) (what : Option Exchange)
    (response : Wire.Response) : IsFresh base (acceptDeferred tell what response) := by
  have hrest : IsFresh base (do
      if (← phase) = .signingOutPending then
        discard (signOut tell)) :=
    isFresh_phase.bind fun _ ↦ (isFresh_signOut htell).discard.ite (isFresh_pure _)
  refine (isFresh_fail htell).ite ?_
  rcases what with _ | _ | _ | _
  · exact hrest
  · cases response.peerId? with
    | none => exact hrest
    | some id =>
      have hassign : IsFresh base (remember (·.assign id)) := fun _ ↦ lifts_remember rfl
      exact hassign.bind fun _ ↦ hrest
  · exact (htell _).bind fun _ ↦ hrest
  · exact hrest

/-! ### The notify link -/

private theorem isFresh_applyEntry (htell : TellsFresh base tell) (body : Bytes) :
    IsFresh base (applyEntry tell body) := by
  rw [applyEntry]
  cases Peer.Entry.read? (Text.Utf8.decodeLossy body) with
  | none => exact isFresh_pure _
  | some entry =>
    refine fun m ↦ lifts_get ?_
    refine Lifts.ite Iff.rfl (fun _ ↦ ?_) fun _ ↦ ?_
    · refine Lifts.bind (lifts_remember rfl) fun _ m' ↦ ?_
      exact (htell _).ite (isFresh_pure _) m'
    · exact Lifts.bind (lifts_remember rfl) fun _ m' ↦ htell _ m'

private theorem isFresh_acceptPayload (htell : TellsFresh base tell) (peer : Int)
    (payload : Bytes) :
    IsFresh base (acceptPayload tell peer payload) := by
  refine IsFresh.ite ?_ (htell _)
  exact fun m ↦ Lifts.bind (lifts_remember rfl) fun _ m' ↦ htell _ m'

private theorem isFresh_acceptNotification (htell : TellsFresh base tell)
    (response : Wire.Response) :
    IsFresh base (acceptNotification tell response) := by
  refine (isFresh_fail htell).ite ?_
  cases response.peerId? with
  | none => exact isFresh_fail htell
  | some id =>
    refine fun m ↦ lifts_get ?_
    exact Lifts.ite Iff.rfl (fun _ ↦ isFresh_applyEntry htell _ m)
      fun _ ↦ isFresh_acceptPayload htell id _ m

private theorem isFresh_startWait (htell : TellsFresh base tell) :
    IsFresh base (startWait tell) := by
  refine fun m ↦ lifts_get ?_
  refine IsFresh.bind (isFresh_withNotify ?_ ?_) (fun issued ↦ ?_) m
  · exact fun n h hfollows ↦ n.issueWait_above hfollows _
  · exact fun n h ↦ (n.remains_issueWait _ h).host
  · exact (isFresh_ofRequest _).bind fun _ ↦ (isFresh_fail htell).ite (isFresh_pure _)

private theorem isFresh_rearmWait (htell : TellsFresh base tell) :
    IsFresh base (rearmWait tell) := by
  refine fun m ↦ lifts_get ?_
  refine IsFresh.bind (isFresh_withNotify ?_ ?_) (fun issued ↦ ?_) m
  · exact fun n h hfollows ↦ n.rearm_above hfollows _ _
  · exact fun n h ↦ (n.remains_rearm _ _ h).host
  · exact (isFresh_ofRequest _).bind fun _ ↦ (isFresh_fail htell).ite (isFresh_pure _)

/-! ### Signals and events -/

private theorem isFresh_react (htell : TellsFresh base tell) (signal : Signal) :
    IsFresh base (react tell signal) := by
  refine isFresh_phase.bind fun phase ↦ ?_
  split
  · have haddress (ip : String) : IsFresh base
        (remember fun s ↦ { s with address := { s.address with host := ip } }) :=
      fun _ ↦ lifts_remember rfl
    exact (haddress _).bind fun _ ↦ (isFresh_dial htell).discard
  · exact isFresh_failToConnect htell
  · exact (isFresh_dial htell).discard
  · exact isFresh_writeRequest htell
  · exact isFresh_writeRequest htell
  · exact isFresh_writeRequest htell
  · exact isFresh_writeRequest htell
  · exact isFresh_acceptSignIn htell _
  · exact isFresh_acceptRelay htell _
  · exact isFresh_acceptDeferred htell _ _
  · exact isFresh_fail htell
  · exact isFresh_armRetry
  · exact isFresh_fail htell
  · exact isFresh_fail htell
  · exact isFresh_fail htell
  · exact isFresh_fail htell
  · exact isFresh_fail htell
  · exact (isFresh_signOut htell).discard
  · exact isFresh_fail htell
  · exact isFresh_startWait htell
  · exact isFresh_acceptNotification htell _
  · exact isFresh_rearmWait htell
  · exact isFresh_fail htell
  · exact isFresh_pure _

private theorem isFresh_onCommand (htell : TellsFresh base tell) (event : Channel.Event) :
    IsFresh base (onCommand tell event) := by
  cases event with
  | connected => exact isFresh_react htell _
  | received bytes =>
    refine IsFresh.bind (isFresh_withCommand (fun c _ _ ↦ c.receive_above bytes)
      fun c h ↦ (c.remains_receive bytes h).host) fun read ↦ ?_
    rcases read with e | _ | ⟨what, response⟩
    · exact isFresh_fail htell
    · exact isFresh_pure _
    · exact isFresh_react htell _
  | closed code =>
    refine IsFresh.bind (isFresh_withCommand (fun _ _ _ ↦ rfl) fun _ h ↦ .refl h) fun what ↦ ?_
    exact (isFresh_react htell _).ite ((isFresh_react htell _).ite (isFresh_pure _))

/-- The induction is on the notifications still to be brought. -/
theorem isFresh_deliverAll (htell : TellsFresh base tell) (responses : List Wire.Response) :
    IsFresh base (deliverAll tell responses) := by
  induction responses with
  | nil => exact isFresh_pure _
  | cons response rest ih =>
    refine (isFresh_react htell _).bind fun _ ↦ isFresh_phase.bind fun _ ↦ ?_
    exact ih.ite (isFresh_pure _)

private theorem isFresh_onNotify (htell : TellsFresh base tell) (event : Channel.Event) :
    IsFresh base (onNotify tell event) := by
  cases event with
  | connected => exact isFresh_react htell _
  | received bytes =>
    have hdeliver (responses : List Wire.Response) : IsFresh base (do
        if (← deliverAll tell responses) && !responses.isEmpty then
          rearmWait tell) :=
      (isFresh_deliverAll htell responses).bind fun _ ↦
        (isFresh_rearmWait htell).ite (isFresh_pure _)
    refine IsFresh.bind (isFresh_withNotify ?_ ?_) fun read ↦ ?_
    · intro n h _
      simp only [n.receive_above bytes]
    · exact fun n h ↦ (n.remains_receive bytes h).host
    · obtain ⟨responses, outcome⟩ := read
      cases outcome with
      | failed error => exact isFresh_fail htell
      | more => exact hdeliver responses
      | closing => exact hdeliver responses
  | closed code =>
    refine IsFresh.bind (isFresh_withNotify (fun _ _ _ ↦ rfl) fun _ h ↦ .refl h) fun _ ↦ ?_
    exact (isFresh_react htell _).ite (isFresh_react htell _)

private theorem any_socket_shift_command (s : Session) (d : Offset) (k : Nat) :
    (s.shift d).command.any (·.socket = d.sockets + k) = s.command.any (·.socket = k) := by
  rw [Session.shift]
  cases s.command <;> simp [CommandLink.shift]

private theorem any_socket_shift_notify (s : Session) (d : Offset) (k : Nat) :
    (s.shift d).notify.any (·.socket = d.sockets + k) = s.notify.any (·.socket = k) := by
  rw [Session.shift]
  cases s.notify <;> simp [NotifyLink.shift]

/-- An event of a socket is one of the shifted socket. -/
theorem lifts_onSocket (htell : TellsFresh base tell) (k : Nat) (event : Channel.Event) :
    Lifts base (onSocket tell k event) (onSocket tell (base.offset.sockets + k) event) m := by
  refine Lifts.bind (lifts_modify ?_ (m.host.retains_setPhase _ _)) fun _ m' ↦ lifts_get ?_
  · have hmoved : (m.host.above base).setPhase (base.offset.sockets + k)
          (((m.host.above base).phaseOf (base.offset.sockets + k)).after event) =
        (m.host.setPhase k ((m.host.phaseOf k).after event)).above base := by
      rw [Host.phaseOf_above, Host.setPhase_above]
    exact congrArg (fun host ↦ { m.above base with host }) hmoved
  · refine Lifts.ite ?_ (fun _ ↦ isFresh_onCommand htell event m') fun _ ↦ ?_
    · exact any_socket_shift_command m'.session base.offset k ▸ Iff.rfl
    · refine Lifts.ite ?_ (fun _ ↦ isFresh_onNotify htell event m') fun _ ↦ isFresh_pure _ m'
      exact any_socket_shift_notify m'.session base.offset k ▸ Iff.rfl

/-- An answer to a lookup knows nothing of the past. -/
theorem isFresh_onAnswer (htell : TellsFresh base tell) (ip : Option String) :
    IsFresh base (onAnswer tell ip) := by
  cases ip with
  | none => exact isFresh_react htell _
  | some ip => exact isFresh_react htell _

/-- The end of a lookup knows nothing of the past. -/
theorem isFresh_onLookup (htell : TellsFresh base tell) (ip : Option String) :
    IsFresh base (onLookup tell ip) :=
  fun _ ↦ Lifts.bind (lifts_remember rfl) fun _ m' ↦ isFresh_onAnswer htell ip m'

/-- A firing of a timer is one of the shifted timer. -/
theorem lifts_onTimer (htell : TellsFresh base tell) (t : Nat) :
    Lifts base (onTimer tell t) (onTimer tell (base.offset.timers + t)) m := by
  refine lifts_get ?_
  have hshift : (m.above base).session.retry.fire? (base.offset.timers + t) =
      (m.session.retry.fire? t).map (RetryTimer.shift base.offset) :=
    m.session.retry.fire?_shift base.offset t
  simp only [hshift]
  cases m.session.retry.fire? t with
  | none => exact isFresh_pure _ m
  | some retry => exact Lifts.bind (lifts_remember rfl) fun _ m' ↦ isFresh_react htell _ m'

/-! ### Observers -/

/-- An observer that only listens is told the same. -/
theorem tellsFresh_silent (depth : Nat) : TellsFresh base (Observer.silent.tell depth) := by
  intro e m
  rw [Observer.tell]
  refine lifts_get ?_
  refine Lifts.ite Iff.rfl (fun _ ↦ ?_) fun _ ↦ isFresh_pure _ m
  refine Lifts.bind (lifts_set rfl id) fun _ m' ↦ ?_
  cases depth with
  | zero => exact isFresh_pure _ m'
  | succ depth => exact isFresh_pure _ m'

end SessionM

end Rendezvous
