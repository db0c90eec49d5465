import Rendezvous.Proofs.Session.Change

/-!
# What holds of all that a session does

A relation between an earlier and a later machine that holds of the single acts of a session, and
goes on over one act after another, holds of whatever the session does: of every call, every signal
and every step, whatever the observer does when it is told. Bytes that cannot be framed are no act
of their own. The session ends over them, and only what is left then is looked at.
-/

namespace Rendezvous

open SessionM

/-- Whether a relation holds of the single acts of a session. -/
structure IsCourse (R : Machine → Machine → Prop) : Prop where
  refl (m : Machine) : R m m
  trans {m m' m'' : Machine} : R m m' → R m' m'' → R m m''
  /-- A note is left in the log. -/
  note (m : Machine) (n : Note) : R m (m.note n)
  /-- Something is remembered that belongs to no link, no lookup and no timer. -/
  remembered (m : Machine) (s : Session) (command : s.command = m.session.command)
    (notify : s.notify = m.session.notify) (resolver : s.resolver = m.session.resolver)
    (live : s.retry.live = m.session.retry.live) : R m { m with session := s }
  observe (m : Machine) : R m { m with observed := true }
  grant (m : Machine) (f : Policy → Policy) : R m (m.grant f)
  reset (m : Machine) : R m m.reset
  quiet (m : Machine) : R m m.quiet
  openLinks (m : Machine) : R m m.openLinks
  lookup (m : Machine) (host : String) (port : Int) : R m (after (startLookup host port) m)
  arm (m : Machine) : R m (after armRetry m)
  start {m : Machine} {c : CommandLink} (command : m.session.command = some c) (what : Exchange)
    (request : Bytes) : R m (m.putCommand (c.start what request m.session.address m.host).2)
  flush {m : Machine} {c : CommandLink} (command : m.session.command = some c) :
    R m (m.putCommand (c.flush m.host).2)
  abort {m : Machine} {c : CommandLink} (command : m.session.command = some c) :
    R m (m.putCommand (c.abort.2, m.host))
  /-- Bytes come over the command connection that can be framed. -/
  receive {m : Machine} {c : CommandLink} (command : m.session.command = some c) (bytes : Bytes)
    (framed : ∀ e, (c.receive bytes m.host).1 ≠ .error e) :
    R m (m.putCommand (c.receive bytes m.host).2)
  /-- Bytes come over the command connection that cannot be framed, and the session ends. -/
  refuse {m : Machine} {c : CommandLink} (command : m.session.command = some c) (bytes : Bytes)
    {e : Wire.FramingError} (failed : (c.receive bytes m.host).1 = .error e) :
    R m (m.putCommand (c.receive bytes m.host).2).reset
  dialled {m : Machine} {n : NotifyLink} (notify : m.session.notify = some n)
    (address : Address) : R m (m.putNotify (n, (m.host.connect n.socket address).2))
  issueWait {m : Machine} {n : NotifyLink} (notify : m.session.notify = some n) (id : Int) :
    R m (m.putNotify (n.issueWait id m.host).2)
  rearm {m : Machine} {n : NotifyLink} (notify : m.session.notify = some n) (id : Int)
    (address : Address) : R m (m.putNotify (n.rearm id address m.host).2)
  abortNotify {m : Machine} {n : NotifyLink} (notify : m.session.notify = some n) :
    R m (m.putNotify (n.abort, m.host))
  /-- Bytes come over the notify connection that can be framed. -/
  receiveNotify {m : Machine} {n : NotifyLink} (notify : m.session.notify = some n)
    (bytes : Bytes) (framed : ∀ e, (n.receive bytes m.host).2.1 ≠ .failed e) :
    R m (m.putNotify (n.receive bytes m.host).2.2)
  /-- Bytes come over the notify connection that cannot be framed, and the session ends. -/
  refuseNotify {m : Machine} {n : NotifyLink} (notify : m.session.notify = some n)
    (bytes : Bytes) {e : Wire.FramingError}
    (failed : (n.receive bytes m.host).2.1 = .failed e) :
    R m (m.putNotify (n.receive bytes m.host).2.2).reset

namespace IsCourse

variable {α β : Type} {R : Machine → Machine → Prop} {m : Machine}

/-- Whether the relation holds between a machine and what a computation leaves of it. -/
def Runs (R : Machine → Machine → Prop) (x : SessionM α) (m : Machine) : Prop := R m (after x m)

/-- What is read of the machine may be used. -/
theorem runs_get {f : Machine → SessionM α} (h : Runs R (f m) m) : Runs R (get >>= f) m := h

/-- A change that keeps to the course. -/
theorem runs_modify {f : Machine → Machine} (h : R m (f m)) : Runs R (modify f) m := h

/-- Either branch keeps to the course. -/
theorem Runs.ite {p : Prop} [Decidable p] {x y : SessionM α} (hx : Runs R x m)
    (hy : Runs R y m) : Runs R (if p then x else y) m := by
  split
  · exact hx
  · exact hy

variable (hR : IsCourse R)

include hR

private theorem runs_pure (a : α) : Runs R (pure a) m := hR.refl m

private theorem runs_throw (f : Fault) : Runs R (throw f : SessionM α) m := hR.refl m

private theorem runs_bind {x : SessionM α} {f : α → SessionM β} (hx : Runs R x m)
    (hf : ∀ a m', Runs R (f a) m') : Runs R (x >>= f) m := by
  unfold Runs after at hx ⊢
  rw [bind_apply]
  rcases hrun : x m with ⟨_ | a, after⟩
  · rwa [hrun] at hx
  · rw [hrun] at hx
    exact hR.trans hx (hf a after)

private theorem runs_map {x : SessionM α} (hx : Runs R x m) (f : α → β) : Runs R (f <$> x) m := by
  rw [(bind_pure_comp f x).symm]
  exact hR.runs_bind hx fun a _ ↦ hR.runs_pure (f a)

private theorem runs_discard {x : SessionM α} (hx : Runs R x m) : Runs R (discard x) m :=
  hR.runs_map hx _

/-! ### Small steps -/

private theorem runs_phase : Runs R phase m := hR.refl m

private theorem runs_enter (p : Session.Phase) : Runs R (enter p) m :=
  hR.remembered m { m.session with phase := p } rfl rfl rfl rfl

private theorem runs_remember {f : Session → Session}
    (command : (f m.session).command = m.session.command)
    (notify : (f m.session).notify = m.session.notify)
    (resolver : (f m.session).resolver = m.session.resolver)
    (live : (f m.session).retry.live = m.session.retry.live) : Runs R (remember f) m :=
  hR.remembered m (f m.session) command notify resolver live

private theorem runs_requireText (n : Int) : Runs R (requireText n) m :=
  (hR.runs_throw _).ite (hR.runs_pure _)

private theorem runs_ofRequest (r : Except Wire.RequestError α) : Runs R (ofRequest r) m := by
  cases r with
  | ok a => exact hR.runs_pure a
  | error e => exact hR.runs_throw _

private theorem runs_withCommand {absent : α}
    {f : CommandLink → Host Note → α × CommandLink × Host Note}
    (hf : ∀ c, m.session.command = some c → R m (m.putCommand (f c m.host).2)) :
    Runs R (withCommand absent f) m :=
  ensures_const.1 (ensures_withCommand.2 ⟨fun _ ↦ hR.refl m, hf⟩)

private theorem runs_withNotify {absent : α}
    {f : NotifyLink → Host Note → α × NotifyLink × Host Note}
    (hf : ∀ n, m.session.notify = some n → R m (m.putNotify (f n m.host).2)) :
    Runs R (withNotify absent f) m :=
  ensures_const.1 (ensures_withNotify.2 ⟨fun _ ↦ hR.refl m, hf⟩)

private theorem runs_startExchange (what : Exchange) (request : Bytes) :
    Runs R (startExchange what request) m :=
  ensures_const.1 (ensures_startExchange.2 ⟨fun _ ↦ hR.refl m, fun _ hc ↦ hR.start hc what request⟩)

variable {tell : Event → SessionM Unit} (htell : ∀ e m, Runs R (tell e) m)

include htell

/-! ### Calls -/

private theorem runs_fail : Runs R (fail tell) m :=
  hR.runs_bind (runs_modify (hR.reset m)) fun _ ↦ htell .disconnected

private theorem runs_failToConnect : Runs R (failToConnect tell) m :=
  hR.runs_bind (runs_modify (hR.reset m)) fun _ ↦ htell .connectionFailure

private theorem runs_dial : Runs R (dial tell) m := by
  refine hR.runs_bind (runs_modify (hR.openLinks m)) fun _ _ ↦ runs_get ?_
  refine hR.runs_bind (hR.runs_ofRequest _) fun request _ ↦ ?_
  refine hR.runs_bind (hR.runs_startExchange _ _) fun started _ ↦ Runs.ite ?_ ?_
  · exact hR.runs_bind (hR.runs_enter _) fun _ _ ↦ hR.runs_pure _
  · exact hR.runs_bind (hR.runs_failToConnect htell) fun _ _ ↦ hR.runs_pure _

private theorem runs_connect (server : Option String) (port : Option Int) (name : Option Text.Raw) :
    Runs R (connect tell server port name) m := by
  refine runs_get (Runs.ite ?_ ?_)
  · exact hR.runs_bind (htell _ _) fun _ _ ↦ hR.runs_pure _
  · refine hR.runs_bind (hR.runs_remember rfl rfl rfl rfl) fun _ _ ↦ ?_
    refine hR.runs_bind (hR.runs_requireText _) fun _ _ ↦ Runs.ite ?_ (hR.runs_dial htell)
    refine hR.runs_bind (hR.runs_enter _) fun _ m ↦ ?_
    refine hR.runs_bind (hR.lookup m _ _) fun started _ ↦ Runs.ite (hR.runs_pure _) ?_
    exact hR.runs_bind (hR.runs_failToConnect htell) fun _ _ ↦ hR.runs_pure _

private theorem runs_sendTo (peer : Int) (payload : Except Wire.RequestError Bytes) :
    Runs R (sendTo tell peer payload) m := by
  refine runs_get ((hR.runs_pure _).ite (Runs.ite ?_ ?_))
  · exact hR.runs_bind (hR.runs_requireText _) fun _ _ ↦ hR.runs_pure _
  · refine hR.runs_bind (hR.runs_ofRequest _) fun request _ ↦ ?_
    refine hR.runs_bind (hR.runs_startExchange _ _) fun started _ ↦ ?_
    exact (hR.runs_pure _).ite (hR.runs_bind (hR.runs_fail htell) fun _ _ ↦ hR.runs_pure _)

private theorem runs_signOut : Runs R (signOut tell) m := by
  refine hR.runs_bind hR.runs_phase fun phase m ↦ (hR.runs_pure _).ite ?_
  refine hR.runs_bind (runs_modify (hR.quiet m)) fun _ _ ↦ runs_get ?_
  refine Runs.ite (hR.runs_bind (hR.runs_enter _) fun _ _ ↦ hR.runs_pure _) (Runs.ite ?_ ?_)
  · exact hR.runs_bind (hR.runs_fail htell) fun _ _ ↦ hR.runs_pure _
  · refine hR.runs_bind (hR.runs_enter _) fun _ _ ↦ ?_
    refine hR.runs_bind (hR.runs_ofRequest _) fun request _ ↦ ?_
    refine hR.runs_bind (hR.runs_startExchange _ _) fun started _ ↦ ?_
    exact (hR.runs_pure _).ite (hR.runs_bind (hR.runs_fail htell) fun _ _ ↦ hR.runs_pure _)

private theorem runs_perform (c : Call) : Runs R (perform tell c) m := by
  cases c with
  | connect server port name => exact hR.runs_map (hR.runs_connect htell server port name) _
  | send peer text => exact hR.runs_map (hR.runs_sendTo htell peer _) _
  | sendBytes peer payload => exact hR.runs_map (hR.runs_sendTo htell peer _) _
  | hangUp peer => exact hR.runs_map (hR.runs_sendTo htell peer _) _
  | signOut => exact hR.runs_map (hR.runs_signOut htell) _
  | close => exact hR.runs_bind (runs_modify (hR.reset m)) fun _ _ ↦ hR.runs_pure _

/-! ### The command link -/

private theorem runs_writeRequest : Runs R (writeRequest tell) m := by
  refine hR.runs_bind (hR.runs_withCommand fun _ hc ↦ hR.flush hc) fun flushed _ ↦ ?_
  cases flushed with
  | failed => exact hR.runs_fail htell
  | idle => exact hR.runs_pure _
  | written size => exact hR.runs_pure _

/-- The induction is on the peers still to be reported. -/
theorem runs_announce (listed : List Peer.Entry) : Runs R (announce tell listed) m := by
  induction listed generalizing m with
  | nil => exact hR.runs_bind hR.runs_phase fun _ _ ↦ (htell _ _).ite (hR.runs_pure _)
  | cons entry rest ih =>
    refine hR.runs_bind hR.runs_phase fun _ _ ↦ Runs.ite ?_ (hR.runs_pure _)
    exact hR.runs_bind (htell _ _) fun _ _ ↦ ih

private theorem runs_acceptSignIn (response : Wire.Response) :
    Runs R (acceptSignIn tell response) m := by
  refine (hR.runs_fail htell).ite ?_
  cases response.peerId? with
  | none => exact hR.runs_fail htell
  | some id =>
    refine (hR.runs_fail htell).ite (runs_get ?_)
    refine hR.runs_bind (hR.runs_remember rfl rfl rfl rfl) fun _ _ ↦ ?_
    refine hR.runs_bind (hR.runs_withNotify fun _ hn ↦ hR.dialled hn _) fun dialled _ ↦ ?_
    exact (hR.runs_announce htell _).ite (hR.runs_fail htell)

private theorem runs_acceptRelay (response : Wire.Response) :
    Runs R (acceptRelay tell response) m :=
  (htell _ _).ite (hR.runs_fail htell)

private theorem runs_acceptDeferred (what : Option Exchange) (response : Wire.Response) :
    Runs R (acceptDeferred tell what response) m := by
  have hrest (m : Machine) : Runs R (do
      if (← phase) = .signingOutPending then
        discard (signOut tell)) m :=
    hR.runs_bind hR.runs_phase fun _ _ ↦
      (hR.runs_discard (hR.runs_signOut htell)).ite (hR.runs_pure _)
  refine (hR.runs_fail htell).ite ?_
  rcases what with _ | _ | _ | _
  · exact hrest m
  · cases response.peerId? with
    | none => exact hrest m
    | some id => exact hR.runs_bind (hR.runs_remember rfl rfl rfl rfl) fun _ ↦ hrest
  · exact hR.runs_bind (htell _ _) fun _ ↦ hrest
  · exact hrest m

/-! ### The notify link -/

private theorem runs_applyEntry (body : Bytes) : Runs R (applyEntry tell body) m := by
  rw [applyEntry]
  cases Peer.Entry.read? (Text.Utf8.decodeLossy body) with
  | none => exact hR.runs_pure _
  | some entry =>
    refine runs_get (Runs.ite ?_ ?_)
    · refine hR.runs_bind (hR.runs_remember rfl rfl rfl rfl) fun _ _ ↦ ?_
      exact (htell _ _).ite (hR.runs_pure _)
    · exact hR.runs_bind (hR.runs_remember rfl rfl rfl rfl) fun _ ↦ htell _

private theorem runs_acceptPayload (peer : Int) (payload : Bytes) :
    Runs R (acceptPayload tell peer payload) m := by
  refine Runs.ite ?_ (htell _ _)
  exact hR.runs_bind (hR.runs_remember rfl rfl rfl rfl) fun _ ↦ htell _

private theorem runs_acceptNotification (response : Wire.Response) :
    Runs R (acceptNotification tell response) m := by
  refine (hR.runs_fail htell).ite ?_
  cases response.peerId? with
  | none => exact hR.runs_fail htell
  | some id =>
    exact runs_get ((hR.runs_applyEntry htell _).ite (hR.runs_acceptPayload htell id _))

private theorem runs_startWait : Runs R (startWait tell) m := by
  refine runs_get (hR.runs_bind (hR.runs_withNotify fun _ hn ↦ hR.issueWait hn _) ?_)
  exact fun issued _ ↦ hR.runs_bind (hR.runs_ofRequest _) fun _ _ ↦
    (hR.runs_fail htell).ite (hR.runs_pure _)

private theorem runs_rearmWait : Runs R (rearmWait tell) m := by
  refine runs_get (hR.runs_bind (hR.runs_withNotify fun _ hn ↦ hR.rearm hn _ _) ?_)
  exact fun issued _ ↦ hR.runs_bind (hR.runs_ofRequest _) fun _ _ ↦
    (hR.runs_fail htell).ite (hR.runs_pure _)

/-! ### Signals and events -/

/-- The answer to a signal keeps to the course. -/
theorem runs_react (signal : Signal) : Runs R (react tell signal) m := by
  refine hR.runs_bind hR.runs_phase fun phase m ↦ ?_
  split
  · exact hR.runs_bind (hR.runs_remember rfl rfl rfl rfl) fun _ _ ↦
      hR.runs_discard (hR.runs_dial htell)
  · exact hR.runs_failToConnect htell
  · exact hR.runs_discard (hR.runs_dial htell)
  · exact hR.runs_writeRequest htell
  · exact hR.runs_writeRequest htell
  · exact hR.runs_writeRequest htell
  · exact hR.runs_writeRequest htell
  · exact hR.runs_acceptSignIn htell _
  · exact hR.runs_acceptRelay htell _
  · exact hR.runs_acceptDeferred htell _ _
  · exact hR.runs_fail htell
  · exact hR.arm m
  · exact hR.runs_fail htell
  · exact hR.runs_fail htell
  · exact hR.runs_fail htell
  · exact hR.runs_fail htell
  · exact hR.runs_fail htell
  · exact hR.runs_discard (hR.runs_signOut htell)
  · exact hR.runs_fail htell
  · exact hR.runs_startWait htell
  · exact hR.runs_acceptNotification htell _
  · exact hR.runs_rearmWait htell
  · exact hR.runs_fail htell
  · exact hR.runs_pure _

private theorem runs_onCommand (event : Channel.Event) : Runs R (onCommand tell event) m := by
  cases event with
  | connected => exact hR.runs_react htell _
  | received bytes =>
    apply ensures_const.1
    rw [onCommand, ensures_bind, ensures_withCommand]
    refine ⟨fun _ ↦ ensures_pure.2 (hR.refl m), fun c hc ↦ ensures_const.2 ?_⟩
    rcases hread : (c.receive bytes m.host).1 with e | _ | ⟨what, response⟩
    · exact hR.trans (hR.refuse hc bytes hread) (htell .disconnected _)
    · exact hR.receive hc bytes (by simp [hread])
    · exact hR.trans (hR.receive hc bytes (by simp [hread])) (hR.runs_react htell _)
  | closed code =>
    refine hR.runs_bind (hR.runs_withCommand fun _ hc ↦ hR.abort hc) fun what _ ↦ ?_
    exact (hR.runs_react htell _).ite ((hR.runs_react htell _).ite (hR.runs_pure _))

/-- The induction is on the notifications still to be brought. -/
theorem runs_deliverAll (responses : List Wire.Response) :
    Runs R (deliverAll tell responses) m := by
  induction responses generalizing m with
  | nil => exact hR.runs_pure _
  | cons response rest ih =>
    refine hR.runs_bind (hR.runs_react htell _) fun _ _ ↦ ?_
    exact hR.runs_bind hR.runs_phase fun _ _ ↦ ih.ite (hR.runs_pure _)

private theorem runs_onNotify (event : Channel.Event) : Runs R (onNotify tell event) m := by
  cases event with
  | connected => exact hR.runs_react htell _
  | received bytes =>
    have hdeliver (responses : List Wire.Response) (m : Machine) : Runs R (do
        if (← deliverAll tell responses) && !responses.isEmpty then
          rearmWait tell) m :=
      hR.runs_bind (hR.runs_deliverAll htell responses) fun _ _ ↦
        (hR.runs_rearmWait htell).ite (hR.runs_pure _)
    apply ensures_const.1
    rw [onNotify, ensures_bind, ensures_withNotify]
    refine ⟨fun _ ↦ ensures_const.2 (hdeliver [] m), fun n hn ↦ ensures_const.2 ?_⟩
    cases hread : (n.receive bytes m.host).2.1 with
    | failed e =>
      simp only [hread]
      exact hR.trans (hR.refuseNotify hn bytes hread) (htell .disconnected _)
    | more =>
      simp only [hread]
      exact hR.trans (hR.receiveNotify hn bytes (by simp [hread])) (hdeliver _ _)
    | closing =>
      simp only [hread]
      exact hR.trans (hR.receiveNotify hn bytes (by simp [hread])) (hdeliver _ _)
  | closed code =>
    refine hR.runs_bind (hR.runs_withNotify fun _ hn ↦ hR.abortNotify hn) fun _ _ ↦ ?_
    exact (hR.runs_react htell _).ite (hR.runs_react htell _)

private theorem runs_onAnswer (ip : Option String) : Runs R (onAnswer tell ip) m := by
  cases ip with
  | none => exact hR.runs_react htell _
  | some ip => exact hR.runs_react htell _

/-! ### Observers -/

/-- The induction is on the deeds still to be done. -/
theorem runs_carryOut (deeds : List Deed) : Runs R (Observer.carryOut tell deeds) m := by
  have hnote (m : Machine) (n : Note) : Runs R (modify (·.note n)) m := hR.note m n
  induction deeds generalizing m with
  | nil => exact hR.runs_pure _
  | cons deed rest ih =>
    cases deed with
    | refuse => exact hR.runs_throw _
    | call c =>
      refine hR.runs_bind (hR.runs_perform htell c) fun answer m ↦ ?_
      exact hR.runs_bind (hnote m _) fun _ _ ↦ ih
    | attempt c =>
      have hattempt : Runs R (tryCatch (perform tell c) fun _ ↦ pure none) m := by
        apply ensures_const.1
        simp only [ensures_tryCatch, ensures_pure]
        exact ensures_const.2 (hR.runs_perform htell c)
      exact hR.runs_bind hattempt fun answer m ↦ hR.runs_bind (hnote m _) fun _ _ ↦ ih

omit htell

/-- The induction is on the depth. -/
theorem runs_tell (o : Observer) (depth : Nat) (e : Event) (m : Machine) :
    Runs R (o.tell depth e) m := by
  have hset (m : Machine) (n : Note) : Runs R (set (m.note n)) m := hR.note m n
  induction depth generalizing e m with
  | zero =>
    rw [Observer.tell]
    refine runs_get (Runs.ite ?_ (hR.runs_pure _))
    exact hR.runs_bind (hset m _) fun _ _ ↦ hR.runs_pure _
  | succ depth ih =>
    rw [Observer.tell]
    refine runs_get (Runs.ite ?_ (hR.runs_pure _))
    exact hR.runs_bind (hset m _) fun _ _ ↦ hR.runs_carryOut ih _

end IsCourse

/-! ### Steps -/

namespace Machine

/-- What a step brings to a session before it does anything itself. -/
def struck (m : Machine) : Step → Machine
  | .answer _ => { m with session := { m.session with resolver := .idle } }
  | .fire t =>
    if t < m.host.timers ∧ m.session.retry.live = some t then
      { m with session := { m.session with retry := m.session.retry.cancel } }
    else m
  | .socket ref event =>
    match m.find? ref with
    | none => m
    | some k => { m with host := m.host.setPhase k ((m.host.phaseOf k).after event) }
  | _ => m

end Machine

open Machine in
/-- Whatever a step brings to a session, the relation holds of what the session then does. -/
theorem IsCourse.step {R : Machine → Machine → Prop} (hR : IsCourse R) (o : Observer)
    (depth : Nat) (m : Machine) (s : Step) : R (m.struck s) (m.step o depth s).2 := by
  rw [Machine.step, runWith_snd]
  have htell := hR.runs_tell o depth
  cases s with
  | call c => exact hR.runs_bind (hR.runs_perform htell c) fun _ _ ↦ hR.runs_pure _
  | observe =>
    refine runs_get (Runs.ite (hR.runs_throw _) ?_)
    exact hR.runs_bind (runs_modify (hR.observe m)) fun _ _ ↦ hR.runs_pure _
  | answer ip =>
    apply ensures_const.1
    simp only [Machine.react, onLookup, ensures_bind, ensures_get, ensures_ite, ensures_remember,
      ensures_pure]
    refine ⟨fun _ ↦ ensures_const.2 (hR.runs_onAnswer htell ip), fun hidle ↦ ?_⟩
    refine hR.remembered _ m.session rfl rfl ?_ rfl
    simp only [struck, Resolver.idle, ← Bool.not_eq_true _ ▸ hidle]
  | lateAnswer ip => exact hR.runs_bind (hR.runs_onAnswer htell ip) fun _ _ ↦ hR.runs_pure _
  | fire t =>
    apply ensures_const.1
    simp only [Machine.react, onTimer, struck, ensures_bind, ensures_get, ensures_ite,
      ensures_pure]
    constructor
    · intro hset
      cases hfire : m.session.retry.fire? t with
      | none =>
        have hnot : m.session.retry.live ≠ some t := fun hlive ↦ by
          simp [RetryTimer.fire?, hlive] at hfire
        rw [if_neg fun h ↦ hnot h.2]
        exact ensures_pure.2 (hR.refl m)
      | some retry =>
        obtain ⟨hlive, rfl⟩ := RetryTimer.fire?_eq_some_iff.1 hfire
        rw [if_pos ⟨hset, hlive⟩, ensures_bind, ensures_remember]
        exact ensures_const.2 (hR.runs_react htell _)
    · intro hunset
      rw [if_neg fun h ↦ hunset h.1]
      exact hR.refl m
  | socket ref event =>
    apply ensures_const.1
    simp only [Machine.react, struck, ensures_bind, ensures_get]
    cases m.find? ref with
    | none => exact ensures_pure.2 (hR.refl m)
    | some k =>
      simp only [onSocket, ensures_bind, ensures_modify, ensures_get, ensures_ite, ensures_pure]
      exact ⟨fun _ ↦ ensures_const.2 (hR.runs_onCommand htell event),
        fun _ ↦ ⟨fun _ ↦ ensures_const.2 (hR.runs_onNotify htell event), fun _ ↦ hR.refl _⟩⟩
  | accept role granted =>
    exact hR.runs_bind (runs_modify (hR.grant m _)) fun _ _ ↦ hR.runs_pure _
  | sendable role granted =>
    exact hR.runs_bind (runs_modify (hR.grant m _)) fun _ _ ↦ hR.runs_pure _
  | resolvable granted =>
    exact hR.runs_bind (runs_modify (hR.grant m _)) fun _ _ ↦ hR.runs_pure _

end Rendezvous
