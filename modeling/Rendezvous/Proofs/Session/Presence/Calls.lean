import Rendezvous.Proofs.Session.Course
import Rendezvous.Proofs.Session.Timing

/-!
# What a session does without news

Calls, and most of what happens to a session, bring no news of peers: nobody is entered or dropped,
nothing is told of peers, and a session that is not connected does not become so. So it is with
whatever the observer does when it is told of something.
-/

namespace Rendezvous

open SessionM IsCourse

namespace Machine

/-- What becomes of a session without news: nothing is told of peers, and if the session is still
connected, then under the same id and with the same directory. -/
structure Abides (m m' : Machine) : Prop where
  observed : m'.observed = m.observed
  told : ∃ new, m'.host.log = new ++ m.host.log ∧
    ∀ e s, LogEntry.note (.heard e s) ∈ new → ¬ e.IsNews ∧ m.observed = true
  stays : m'.session.phase = .connected → m.session.phase = .connected ∧
    m'.session.selfId = m.session.selfId ∧ m'.session.directory = m.session.directory

variable {m m' m'' : Machine}

private theorem Abides.refl (m : Machine) : m.Abides m :=
  ⟨rfl, ⟨[], rfl, by simp⟩, fun h ↦ ⟨h, rfl, rfl⟩⟩

private theorem Abides.trans (h : m.Abides m') (h' : m'.Abides m'') : m.Abides m'' where
  observed := h'.observed.trans h.observed
  told := by
    obtain ⟨first, hfirst, hnews⟩ := h.told
    obtain ⟨second, hsecond, hnews'⟩ := h'.told
    refine ⟨second ++ first, by rw [hsecond, hfirst, List.append_assoc], fun e s he ↦ ?_⟩
    rcases List.mem_append.1 he with he | he
    · exact h.observed ▸ hnews' e s he
    · exact hnews e s he
  stays hconnected := by
    obtain ⟨hphase, hself, hdirectory⟩ := h'.stays hconnected
    obtain ⟨hphase', hself', hdirectory'⟩ := h.stays hphase
    exact ⟨hphase', hself.trans hself', hdirectory.trans hdirectory'⟩

/-- Requests tell nothing. -/
theorem abides_of_asks (hasks : m.host.Asks m'.host) (hobserved : m'.observed = m.observed)
    (hstays : m'.session.phase = .connected → m.session.phase = .connected ∧
      m'.session.selfId = m.session.selfId ∧ m'.session.directory = m.session.directory) :
    m.Abides m' where
  observed := hobserved
  told := by
    obtain ⟨asked, hlog⟩ := hasks
    exact ⟨asked.map .action, hlog, by simp⟩
  stays := hstays

private theorem abides_reset (m : Machine) : m.Abides m.reset := by
  refine abides_of_asks m.asks_reset m.observed_reset fun hconnected ↦ ?_
  cases m.isReset_reset.phase.symm.trans hconnected

private theorem abides_quiet (m : Machine) : m.Abides m.quiet := by
  refine abides_of_asks m.asks_quiet m.observed_quiet fun hconnected ↦ ?_
  rw [session_quiet] at hconnected ⊢
  exact ⟨hconnected, rfl, rfl⟩

private theorem abides_openLinks (m : Machine) : m.Abides m.openLinks := by
  refine abides_of_asks m.asks_openLinks m.observed_openLinks fun hconnected ↦ ?_
  rw [session_openLinks] at hconnected ⊢
  exact ⟨hconnected, rfl, rfl⟩

private theorem abides_setPhase (m : Machine) {p : Session.Phase} (hp : p ≠ .connected) :
    m.Abides (m.setPhase p) :=
  abides_of_asks (.refl _) rfl fun hconnected ↦ absurd hconnected hp

private theorem abides_called (m : Machine) (c : Call) (answer : Option Bool) :
    m.Abides (m.note (.called c answer)) where
  observed := rfl
  told := ⟨[.note (.called c answer)], rfl, by simp⟩
  stays h := ⟨h, rfl, rfl⟩

/-- What is no news may be heard without more. -/
theorem abides_heard {e : Event} (hnews : ¬ e.IsNews) (hobserved : m.observed = true) :
    m.Abides (m.note (.heard e m.session)) where
  observed := rfl
  told := by
    refine ⟨[.note (.heard e m.session)], rfl, fun e' s he ↦ ?_⟩
    cases List.mem_singleton.1 he
    exact ⟨hnews, hobserved⟩
  stays h := ⟨h, rfl, rfl⟩

/-- A command link put back is no news. -/
theorem abides_putCommand (m : Machine) (after : CommandLink × Host Note)
    (hasks : m.host.Asks after.2) : m.Abides (m.putCommand after) :=
  abides_of_asks hasks rfl fun h ↦ ⟨h, rfl, rfl⟩

/-- A notify link put back is no news. -/
theorem abides_putNotify (m : Machine) (after : NotifyLink × Host Note)
    (hasks : m.host.Asks after.2) : m.Abides (m.putNotify after) :=
  abides_of_asks hasks rfl fun h ↦ ⟨h, rfl, rfl⟩

end Machine

namespace SessionM

open Machine

/-- A way of telling that brings no news of its own: what is no news is told, and no more comes of
it. -/
def IsDiscreet (tell : Event → SessionM Unit) : Prop :=
  ∀ e m, ¬ e.IsNews → Runs Abides (tell e) m

variable {α β : Type} {m : Machine}

/-- One after another, neither of which brings news. -/
theorem abides_bind {x : SessionM α} {f : α → SessionM β} (hx : Runs Abides x m)
    (hf : ∀ a m', Runs Abides (f a) m') : Runs Abides (x >>= f) m := by
  unfold Runs after at hx ⊢
  rw [bind_apply]
  rcases hrun : x m with ⟨_ | a, after⟩
  · rwa [hrun] at hx
  · rw [hrun] at hx
    exact hx.trans (hf a after)

/-- A value by itself is no news. -/
theorem abides_pure (a : α) : Runs Abides (pure a) m := .refl m

private theorem abides_throw (f : Fault) : Runs Abides (throw f : SessionM α) m := .refl m

private theorem abides_map {x : SessionM α} (hx : Runs Abides x m) (f : α → β) :
    Runs Abides (f <$> x) m := by
  rw [(bind_pure_comp f x).symm]
  exact abides_bind hx fun a _ ↦ abides_pure (f a)

private theorem abides_enter {p : Session.Phase} (hp : p ≠ .connected) : Runs Abides (enter p) m :=
  m.abides_setPhase hp

private theorem abides_requireText (n : Int) : Runs Abides (requireText n) m :=
  (abides_throw _).ite (abides_pure _)

private theorem abides_ofRequest (r : Except Wire.RequestError α) :
    Runs Abides (ofRequest r) m := by
  cases r with
  | ok a => exact abides_pure a
  | error e => exact abides_throw _

/-- What is done with the command link brings no news. -/
theorem abides_withCommand {absent : α} {f : CommandLink → Host Note → α × CommandLink × Host Note}
    (hf : ∀ link (host : Host Note), host.Asks (f link host).2.2) :
    Runs Abides (withCommand absent f) m :=
  ensures_const.1 (ensures_withCommand.2
    ⟨fun _ ↦ .refl m, fun link _ ↦ m.abides_putCommand _ (hf link m.host)⟩)

/-- What is done with the notify link brings no news. -/
theorem abides_withNotify {absent : α} {f : NotifyLink → Host Note → α × NotifyLink × Host Note}
    (hf : ∀ link (host : Host Note), host.Asks (f link host).2.2) :
    Runs Abides (withNotify absent f) m :=
  ensures_const.1 (ensures_withNotify.2
    ⟨fun _ ↦ .refl m, fun link _ ↦ m.abides_putNotify _ (hf link m.host)⟩)

private theorem abides_startExchange (what : Exchange) (request : Bytes) :
    Runs Abides (startExchange what request) m :=
  runs_get (abides_withCommand fun link host ↦ link.asks_start what request _ host)

private theorem abides_startLookup (host : String) (port : Int) :
    Runs Abides (startLookup host port) m :=
  ensures_const.1 (ensures_startLookup.2 ⟨fun _ ↦ .refl m, fun _ _ ↦
    abides_of_asks (Host.asks_ask _ _) rfl fun h ↦ ⟨h, rfl, rfl⟩⟩)

private theorem abides_armRetry : Runs Abides armRetry m :=
  ensures_const.1 (ensures_armRetry.2 ⟨fun _ ↦ .refl m, fun _ _ ↦
    abides_of_asks (Host.asks_schedule _ _) rfl fun h ↦ ⟨h, rfl, rfl⟩⟩)

/-- What is remembered besides the phase, the id and the directory is no news. -/
theorem abides_remember {f : Session → Session} (hphase : (f m.session).phase = m.session.phase)
    (hself : (f m.session).selfId = m.session.selfId)
    (hdirectory : (f m.session).directory = m.session.directory) :
    Runs Abides (remember f) m :=
  abides_of_asks (.refl _) rfl fun h ↦ ⟨hphase ▸ h, hself, hdirectory⟩

variable {tell : Event → SessionM Unit} (htell : IsDiscreet tell)

include htell

/-! ### Calls -/

/-- A session that fails is left, which is no news of peers. -/
theorem abides_fail : Runs Abides (fail tell) m :=
  abides_bind (runs_modify m.abides_reset) fun _ m' ↦ htell .disconnected m' id

private theorem abides_failToConnect : Runs Abides (failToConnect tell) m :=
  abides_bind (runs_modify m.abides_reset) fun _ m' ↦ htell .connectionFailure m' id

private theorem abides_dial : Runs Abides (dial tell) m := by
  refine abides_bind (runs_modify m.abides_openLinks) fun _ _ ↦ runs_get ?_
  refine abides_bind (abides_ofRequest _) fun request _ ↦ ?_
  refine abides_bind (abides_startExchange _ _) fun started _ ↦ Runs.ite ?_ ?_
  · exact abides_bind (abides_enter (by decide)) fun _ _ ↦ abides_pure _
  · exact abides_bind (abides_failToConnect htell) fun _ _ ↦ abides_pure _

private theorem abides_connect (server : Option String) (port : Option Int)
    (name : Option Text.Raw) :
    Runs Abides (connect tell server port name) m := by
  refine runs_get (Runs.ite ?_ ?_)
  · exact abides_bind (htell .connectionFailure _ id) fun _ _ ↦ abides_pure _
  · refine abides_bind (abides_remember rfl rfl rfl) fun _ _ ↦ ?_
    refine abides_bind (abides_requireText _) fun _ _ ↦ Runs.ite ?_ (abides_dial htell)
    refine abides_bind (abides_enter (by decide)) fun _ _ ↦ ?_
    refine abides_bind (abides_startLookup _ _) fun started _ ↦ Runs.ite (abides_pure _) ?_
    exact abides_bind (abides_failToConnect htell) fun _ _ ↦ abides_pure _

private theorem abides_sendTo (peer : Int) (payload : Except Wire.RequestError Bytes) :
    Runs Abides (sendTo tell peer payload) m := by
  refine runs_get ((abides_pure _).ite (Runs.ite ?_ ?_))
  · exact abides_bind (abides_requireText _) fun _ _ ↦ abides_pure _
  · refine abides_bind (abides_ofRequest _) fun request _ ↦ ?_
    refine abides_bind (abides_startExchange _ _) fun started _ ↦ ?_
    exact (abides_pure _).ite (abides_bind (abides_fail htell) fun _ _ ↦ abides_pure _)

private theorem abides_signOut : Runs Abides (signOut tell) m := by
  refine abides_bind (.refl m) fun phase m ↦ (abides_pure _).ite ?_
  refine abides_bind (runs_modify m.abides_quiet) fun _ _ ↦ runs_get ?_
  refine Runs.ite (abides_bind (abides_enter (by decide)) fun _ _ ↦ abides_pure _)
    (Runs.ite ?_ ?_)
  · exact abides_bind (abides_fail htell) fun _ _ ↦ abides_pure _
  · refine abides_bind (abides_enter (by decide)) fun _ _ ↦ ?_
    refine abides_bind (abides_ofRequest _) fun request _ ↦ ?_
    refine abides_bind (abides_startExchange _ _) fun started _ ↦ ?_
    exact (abides_pure _).ite (abides_bind (abides_fail htell) fun _ _ ↦ abides_pure _)

/-- No call brings news. -/
theorem abides_perform (c : Call) : Runs Abides (perform tell c) m := by
  cases c with
  | connect server port name => exact abides_map (abides_connect htell server port name) _
  | send peer text => exact abides_map (abides_sendTo htell peer _) _
  | sendBytes peer payload => exact abides_map (abides_sendTo htell peer _) _
  | hangUp peer => exact abides_map (abides_sendTo htell peer _) _
  | signOut => exact abides_map (abides_signOut htell) _
  | close => exact abides_bind (runs_modify m.abides_reset) fun _ _ ↦ abides_pure _

/-! ### Observers -/

/-- The induction is on the deeds still to be done. -/
theorem abides_carryOut (deeds : List Deed) : Runs Abides (Observer.carryOut tell deeds) m := by
  induction deeds generalizing m with
  | nil => exact abides_pure _
  | cons deed rest ih =>
    have hrest (c : Call) (answer : Option Bool) (m : Machine) : Runs Abides (do
        modify (·.note (.called c answer))
        Observer.carryOut tell rest) m :=
      abides_bind (runs_modify (m.abides_called c answer)) fun _ _ ↦ ih
    cases deed with
    | refuse => exact abides_throw _
    | call c => exact abides_bind (abides_perform htell c) fun answer m ↦ hrest c answer m
    | attempt c =>
      have hattempt : Runs Abides (tryCatch (perform tell c) fun _ ↦ pure none) m := by
        apply ensures_const.1
        simp only [ensures_tryCatch, ensures_pure]
        exact ensures_const.2 (abides_perform htell c)
      exact abides_bind hattempt fun answer m ↦ hrest c answer m

omit htell

/-- A way of telling by which what is told is heard, and brings no more news. Without an observer
nothing is told. -/
def Hears (tell : Event → SessionM Unit) : Prop :=
  ∀ e m, (m.observed = true → (m.note (.heard e m.session)).Abides (after (tell e) m)) ∧
    (m.observed = false → after (tell e) m = m)

/-- A way of telling by which what is told is heard brings no news of its own. -/
theorem Hears.isDiscreet (h : Hears tell) : IsDiscreet tell := by
  intro e m hnews
  cases hobserved : m.observed with
  | true => exact (abides_heard hnews hobserved).trans ((h e m).1 hobserved)
  | false =>
    rw [Runs, (h e m).2 hobserved]
    exact .refl m

/-- An observer hears first of what it is told, and whatever it then does brings no news. -/
theorem hears_tell (o : Observer) (depth : Nat) : Hears (o.tell depth) := by
  induction depth with
  | zero =>
    refine fun e m ↦ ⟨fun hobserved ↦ ensures_const.1 ?_, fun hobserved ↦ after_eq ?_⟩
    · simp only [Observer.tell, ensures_bind, ensures_get, ensures_ite, ensures_set, ensures_pure]
      exact ⟨fun _ ↦ .refl _, fun hnot ↦ absurd hobserved hnot⟩
    · simp [Observer.tell, hobserved]
  | succ depth ih =>
    refine fun e m ↦ ⟨fun hobserved ↦ ensures_const.1 ?_, fun hobserved ↦ after_eq ?_⟩
    · simp only [Observer.tell, ensures_bind, ensures_get, ensures_ite, ensures_set, ensures_pure]
      exact ⟨fun _ ↦ ensures_const.2 (abides_carryOut ih.isDiscreet _),
        fun hnot ↦ absurd hobserved hnot⟩
    · simp [Observer.tell, hobserved]

include htell

/-! ### Signals -/

private theorem abides_writeRequest : Runs Abides (writeRequest tell) m := by
  refine abides_bind (abides_withCommand CommandLink.asks_flush) fun flushed _ ↦ ?_
  cases flushed with
  | failed => exact abides_fail htell
  | idle => exact abides_pure _
  | written size => exact abides_pure _

private theorem abides_acceptRelay (response : Wire.Response) :
    Runs Abides (acceptRelay tell response) m :=
  (htell (.messageSent 0) m id).ite (abides_fail htell)

private theorem abides_acceptDeferred (hphase : m.session.phase ≠ .connected)
    (what : Option Exchange)
    (response : Wire.Response) : Runs Abides (acceptDeferred tell what response) m := by
  have hrest (m : Machine) : Runs Abides (do
      if (← phase) = .signingOutPending then
        discard (signOut tell)) m :=
    abides_bind (.refl m) fun _ _ ↦ (abides_map (abides_signOut htell) _).ite (abides_pure _)
  refine (abides_fail htell).ite ?_
  rcases what with _ | _ | _ | _
  · exact hrest m
  · cases response.peerId? with
    | none => exact hrest m
    | some id =>
      -- The id is assigned to a session that is not connected.
      have hassigned : Runs Abides (remember (·.assign id)) m :=
        abides_of_asks (.refl _) rfl fun hconnected ↦ absurd hconnected hphase
      exact abides_bind hassigned fun _ ↦ hrest
  · exact abides_bind (htell (.messageSent 0) m id) fun _ ↦ hrest
  · exact hrest m

private theorem abides_startWait : Runs Abides (startWait tell) m := by
  refine runs_get (abides_bind (abides_withNotify fun link host ↦ link.asks_issueWait _ host) ?_)
  exact fun issued _ ↦ abides_bind (abides_ofRequest _) fun _ _ ↦
    (abides_fail htell).ite (abides_pure _)

/-- Rearming the wait brings no news. -/
theorem abides_rearmWait : Runs Abides (rearmWait tell) m := by
  refine runs_get (abides_bind (abides_withNotify fun link host ↦ link.asks_rearm _ _ host) ?_)
  exact fun issued _ ↦ abides_bind (abides_ofRequest _) fun _ _ ↦
    (abides_fail htell).ite (abides_pure _)

/-- Only the answer to signing in and notifications bring news. -/
theorem abides_react {signal : Signal} (hanswer : m.session.phase = .signingIn → ¬ signal.IsAnswer)
    (hnotice : m.session.phase = .connected → ∀ response, signal ≠ .notifyAnswered response) :
    Runs Abides (react tell signal) m := by
  apply ensures_const.1
  rw [react, ensures_bind, ensures_phase]
  apply ensures_const.2
  split
  · exact abides_bind (abides_remember rfl rfl rfl) fun _ _ ↦ abides_map (abides_dial htell) _
  · exact abides_failToConnect htell
  · exact abides_map (abides_dial htell) _
  · exact abides_writeRequest htell
  · exact abides_writeRequest htell
  · exact abides_writeRequest htell
  · exact abides_writeRequest htell
  · next hphase => exact absurd trivial (hanswer hphase)
  · exact abides_acceptRelay htell _
  · next hphase => exact abides_acceptDeferred htell (by simp [hphase]) _ _
  · exact abides_fail htell
  · exact abides_armRetry
  · exact abides_fail htell
  · exact abides_fail htell
  · exact abides_fail htell
  · exact abides_fail htell
  · exact abides_fail htell
  · exact abides_map (abides_signOut htell) _
  · exact abides_fail htell
  · exact abides_startWait htell
  · next hphase => exact absurd rfl (hnotice hphase _)
  · exact abides_rearmWait htell
  · exact abides_fail htell
  · exact abides_pure _

/-- A signal that is neither an answer nor a notification never brings news. -/
theorem abides_signal (signal : Signal) (hanswer : ¬ signal.IsAnswer)
    (hnotice : ∀ response, signal ≠ .notifyAnswered response) : Runs Abides (react tell signal) m :=
  abides_react htell (fun _ ↦ hanswer) fun _ ↦ hnotice

end SessionM

end Rendezvous
