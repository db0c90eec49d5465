import Rendezvous.Proofs.Session.Capacity
import Rendezvous.Proofs.Session.Presence.Reports

/-!
# Peers over a run

Over a whole run nobody is reported to join under the session's own id, and every report that a
peer left is due to a notification. The session does not ask whether it knows who leaves. Where it
does, the report never names itself, and between two such reports of a peer stands one that the peer
joined.
-/

namespace Rendezvous

open SessionM IsCourse

namespace Machine

/-- Whether a step brings bytes over the notify connection that can be framed, the notifications in
them, and the machine to which these are brought. -/
inductive ReadsNotices (m : Machine) : Step → List Wire.Response → Machine → Prop where
  | bytes {ref : SocketRef} {bytes : Bytes} {n : NotifyLink} (link : m.session.notify = some n)
      (apart : m.session.command.any (·.socket = n.socket) = false)
      (found : m.find? ref = some n.socket)
      (framed : ∀ e,
        (n.receive bytes (m.located n.socket (.received bytes)).host).2.1 ≠ .failed e) :
      ReadsNotices m (.socket ref (.received bytes))
        (n.receive bytes (m.located n.socket (.received bytes)).host).1
        ((m.located n.socket (.received bytes)).putNotify
          (n.receive bytes (m.located n.socket (.received bytes)).host).2.2)

/-- Whether a step brings a notification to the session, and the machine as it is when its turn
comes. The session is connected then. -/
def Delivers (o : Observer) (depth : Nat) (m : Machine) (st : Step) (response : Wire.Response)
    (now : Machine) : Prop :=
  ∃ front back next, m.ReadsNotices st (front ++ response :: back) next ∧
    deliverAll (o.tell depth) front next = (.ok true, now) ∧ now.session.phase = .connected

/-- Whether a step signs the session in and stops at a fault, so that some of the peers that are
known from then on may not have been reported. -/
def StopsShort (o : Observer) (depth : Nat) (m : Machine) (st : Step) : Prop :=
  m.session.phase = .signingIn ∧ (m.step o depth st).2.session.phase = .connected ∧
    ∃ f, (m.step o depth st).1 = .fault f

variable {config : Config} {IsRight : Int → Session → List (LogEntry Note) → Prop} {D : Int → Prop}
  {o : Observer} {depth : Nat} {m next now : Machine} {st : Step} {response : Wire.Response}
  {responses : List Wire.Response}

private theorem ReadsNotices.becomes (h : m.ReadsNotices st responses next) {late : Int → Prop}
    {tell : Event → SessionM Unit} : m.Becomes late tell next := by
  cases h with
  | @bytes _ bytes n link =>
    have hlocated : m.Becomes late tell (m.located n.socket (.received bytes)) :=
      (Becomes.refl m).change (.socket _ _)
    have hlink : (m.located n.socket (.received bytes)).session.notify = some n := link
    exact hlocated.change (.receiveNotify hlink bytes)

private theorem IsSound.becomes (h : m.IsSound config)
    (hbecomes : m.Becomes (fun _ ↦ True) (o.tell depth) now) : now.IsSound config :=
  have hkept : IsKept (fun _ ↦ True) (IsSound config) := isKept_isSound config
  hbecomes.induction h fun m m' ↦ hkept.change _ m m' (hkept.tell o depth)

/-- When the turn of a notification comes, the session is sound. -/
theorem Delivers.isSound (h : m.IsSound config) (hdelivers : m.Delivers o depth st response now) :
    now.IsSound config := by
  obtain ⟨front, back, next, hreads, hfront, -⟩ := hdelivers
  have hbecomes : m.Becomes (fun _ ↦ True) (o.tell depth) (after (deliverAll (o.tell depth) front)
      next) :=
    ensures_const.1 ((becomes_deliverAll hreads.becomes front).mono (fun _ _ ↦ And.left) fun _ ↦ id)
  rw [after, hfront] at hbecomes
  exact h.becomes hbecomes

end Machine

namespace SessionM

open Machine

variable {IsRight : Int → Session → List (LogEntry Note) → Prop} {D : Int → Prop}
  {tell : Event → SessionM Unit} {m : Machine}

/-- Where there is no news, what is known and reported stays right, also at a fault. -/
theorem informed_of_runs {α : Type} {x : SessionM α} {E : Machine → Prop}
    (h : m.IsInformed IsRight D) (hx : Runs Abides x m) :
    Ensures x m (fun _ ↦ IsInformed IsRight D) (fun after ↦ after.IsInformed IsRight D ∨ E after) :=
  ensures_of_after (h.abides hx) fun _ ↦ .inl

/-- On the command connection only the answer to signing in brings news. -/
theorem informed_onCommand (htell : Hears tell) (h : m.IsInformed IsRight D)
    (event : Channel.Event) :
    Ensures (onCommand tell event) m (fun _ ↦ IsInformed IsRight D)
      (fun after ↦ after.IsInformed IsRight D ∨
        m.session.phase = .signingIn ∧ after.IsTold IsRight) := by
  cases event with
  | connected => exact informed_of_runs h (abides_signal htell.isDiscreet _ id (by simp))
  | received bytes =>
    rw [onCommand, ensures_bind, ensures_withCommand]
    refine ⟨fun _ ↦ ensures_pure.2 h, fun link _ ↦ ?_⟩
    have hreceived := h.abides (m.abides_putCommand (link.receive bytes m.host).2
      (link.asks_receive bytes m.host))
    cases hread : (link.receive bytes m.host).1 with
    | error e => exact informed_of_runs hreceived (abides_fail htell.isDiscreet)
    | ok found =>
      cases found with
      | none => exact ensures_pure.2 hreceived
      | some found =>
        obtain ⟨what, response⟩ := found
        by_cases hphase : m.session.phase = .signingIn
        · have hanswered : (m.putCommand (link.receive bytes m.host).2).session.phase =
              .signingIn := hphase
          simp only [react, ensures_bind, ensures_phase, hanswered]
          exact (ensures_acceptSignIn htell hreceived.told response).mono
            (fun _ after hafter ↦ ⟨hafter.told, hafter.knows.mono (by simp)⟩)
            fun _ htold ↦ .inr ⟨hphase, htold⟩
        · exact informed_of_runs hreceived
            (abides_react htell.isDiscreet (fun hnow ↦ absurd hnow hphase) (by simp))
  | closed code =>
    have hreact (m : Machine) (what : Option Exchange) : Runs Abides (do
        if code = Channel.refusedCode then
          react tell .commandRefused
        else if what.isSome then
          react tell .commandLost) m :=
      (abides_signal htell.isDiscreet .commandRefused id (by simp)).ite
        ((abides_signal htell.isDiscreet .commandLost id (by simp)).ite (abides_pure _))
    refine informed_of_runs h (abides_bind (abides_withCommand fun link host ↦ .refl _) ?_)
    exact fun what m' ↦ hreact m' what

/-- On the notify connection only notifications bring news. -/
theorem informed_onNotify (htell : Hears tell) {late : Int → Prop}
    (hown : ∀ now, m.Becomes late tell now → now.session.directory.selfId = now.session.selfId)
    (h : m.IsInformed IsRight D) {n : NotifyLink} (hlink : m.session.notify = some n)
    (event : Channel.Event) (hright : ∀ bytes, event = .received bytes →
      (∀ e, (n.receive bytes m.host).2.1 ≠ .failed e) → ∀ front response back now,
        (n.receive bytes m.host).1 = front ++ response :: back →
        deliverAll tell front (m.putNotify (n.receive bytes m.host).2.2) = (.ok true, now) →
        now.session.phase = .connected → ∀ id, now.session.farewell? response = some id →
          IsRight id (now.drop id).session now.host.log) :
    (after (onNotify tell event) m).IsInformed IsRight D := by
  cases event with
  | connected => exact h.abides (abides_signal htell.isDiscreet .notifyConnected id (by simp))
  | received bytes =>
    have hreceived := h.abides (m.abides_putNotify (n.receive bytes m.host).2.2
      (n.asks_receive bytes m.host))
    have hbecomes : m.Becomes late tell (m.putNotify (n.receive bytes m.host).2.2) :=
      (Becomes.refl m).change (.receiveNotify hlink bytes)
    have hdeliver (hframed : ∀ e, (n.receive bytes m.host).2.1 ≠ .failed e) :
        Ensures (do
          if (← deliverAll tell (n.receive bytes m.host).1) && !(n.receive bytes m.host).1.isEmpty
          then rearmWait tell) (m.putNotify (n.receive bytes m.host).2.2)
          (fun _ ↦ IsInformed IsRight D) (IsInformed IsRight D) := by
      have hall := told_deliverAll htell hown hbecomes hreceived (hright bytes rfl hframed)
      simp only [ensures_bind, ensures_ite, ensures_pure]
      exact (ensures_const.2 hall).mono (fun _ _ hafter ↦ ⟨fun _ ↦
        ensures_const.2 (hafter.abides (abides_rearmWait htell.isDiscreet)), fun _ ↦ hafter⟩)
        fun _ ↦ id
    apply ensures_const.1
    rw [onNotify, ensures_bind, ensures_withNotify_of_eq hlink]
    cases hread : (n.receive bytes m.host).2.1 with
    | failed e =>
      simp only [hread]
      exact ensures_const.2 (hreceived.abides (abides_fail htell.isDiscreet))
    | more =>
      simp only [hread]
      exact hdeliver (by simp [hread])
    | closing =>
      simp only [hread]
      exact hdeliver (by simp [hread])
  | closed code =>
    have hreact (m : Machine) : Runs Abides (do
        if code = Channel.refusedCode then
          react tell .notifyRefused
        else
          react tell .notifyLost) m :=
      (abides_signal htell.isDiscreet .notifyRefused id (by simp)).ite
        (abides_signal htell.isDiscreet .notifyLost id (by simp))
    exact h.abides (abides_bind (abides_withNotify fun link host ↦ .refl _) fun _ ↦ hreact)

end SessionM

namespace Machine

variable {config : Config} {IsRight : Int → Session → List (LogEntry Note) → Prop} {D : Int → Prop}
  {m : Machine}

/-! ### Steps -/

private theorem abides_grant (m : Machine) (f : Policy → Policy) : m.Abides (m.grant f) :=
  abides_of_asks (.refl m.host) rfl fun h ↦ ⟨h, rfl, rfl⟩

private theorem abides_located (m : Machine) (k : Nat) (event : Channel.Event) :
    m.Abides (m.located k event) :=
  abides_of_asks (.refl m.host) rfl fun h ↦ ⟨h, rfl, rfl⟩

/-- A step keeps what is known and reported right if the departures that it brings are. Only where
the answer to signing in meets a fault, what is known may get ahead of what was reported. -/
theorem informed_react (o : Observer) (depth : Nat) (hsound : m.IsSound config)
    (h : m.IsInformed IsRight D) (st : Step)
    (hright : ∀ response now, m.Delivers o depth st response now → ∀ id,
      now.session.farewell? response = some id →
        IsRight id (now.drop id).session now.host.log) :
    Ensures (Machine.react (o.tell depth) st) m (fun _ ↦ IsInformed IsRight D)
      (fun after ↦ after.IsInformed IsRight D ∨
        m.session.phase = .signingIn ∧ after.IsTold IsRight) := by
  have htell := hears_tell o depth
  have hanswer (m : Machine) (ip : Option String) : Runs Abides (onAnswer (o.tell depth) ip) m := by
    cases ip with
    | none => exact abides_signal htell.isDiscreet .resolveFailed id (by simp)
    | some ip => exact abides_signal htell.isDiscreet (.resolved ip) id (by simp)
  cases st with
  | call c =>
    exact informed_of_runs h (abides_bind (abides_perform htell.isDiscreet c) fun _ _ ↦
      abides_pure _)
  | observe =>
    simp only [Machine.react, ensures_bind, ensures_get, ensures_ite, ensures_throw,
      ensures_modify, ensures_pure]
    exact ⟨fun _ ↦ .inl h, fun _ ↦
      ⟨⟨fun hnot ↦ absurd hnot (by simp), h.told.right⟩, fun hconnected ↦ h.knows hconnected⟩⟩
  | answer ip =>
    refine informed_of_runs h (runs_get (Runs.ite ?_ (abides_pure _)))
    refine abides_bind ?_ fun _ _ ↦ abides_pure _
    exact abides_bind (abides_remember rfl rfl rfl) fun _ m ↦ hanswer m ip
  | lateAnswer ip => exact informed_of_runs h (abides_bind (hanswer m ip) fun _ _ ↦ abides_pure _)
  | fire t =>
    refine informed_of_runs h (runs_get (Runs.ite ?_ (abides_pure _)))
    refine abides_bind (runs_get ?_) fun _ _ ↦ abides_pure _
    dsimp only
    cases m.session.retry.fire? t with
    | none => exact abides_pure _
    | some retry =>
      exact abides_bind (abides_remember rfl rfl rfl) fun _ _ ↦
        abides_signal htell.isDiscreet .retryDue id (by simp)
  | socket ref event =>
    simp only [Machine.react, ensures_bind, ensures_get]
    cases hfound : m.find? ref with
    | none => exact ensures_pure.2 h
    | some k =>
      have hlocated := h.abides (m.abides_located k event)
      simp only [onSocket, ensures_bind, ensures_modify, ensures_get, ensures_ite, ensures_pure]
      refine ⟨fun _ ↦ informed_onCommand htell hlocated event, fun hapart ↦
        ⟨fun hany ↦ ?_, fun _ ↦ hlocated⟩⟩
      obtain ⟨n, hlink, hsocket⟩ := (Option.any_eq_true _ _).1 hany
      obtain rfl : n.socket = k := of_decide_eq_true hsocket
      have hown (now : Machine) (hbecomes : (m.located n.socket event).Becomes (fun _ ↦ True)
          (o.tell depth) now) : now.session.directory.selfId = now.session.selfId := by
        have hmoved : m.Becomes (fun _ ↦ True) (o.tell depth) (m.located n.socket event) :=
          (Becomes.refl m).change (.socket _ _)
        exact (hsound.becomes (hmoved.trans hbecomes)).session.own
      refine ensures_of_after (informed_onNotify htell hown hlocated hlink event ?_) fun _ ↦ .inl
      rintro bytes rfl hframed front response back now hread hfront hconnected
      refine hright response now ⟨front, back, _, ?_, hfront, hconnected⟩
      rw [← hread]
      exact .bytes hlink (by simpa using hapart) hfound hframed
  | accept role granted =>
    exact informed_of_runs h (abides_bind (runs_modify (m.abides_grant _)) fun _ _ ↦ abides_pure _)
  | sendable role granted =>
    exact informed_of_runs h (abides_bind (runs_modify (m.abides_grant _)) fun _ _ ↦ abides_pure _)
  | resolvable granted =>
    exact informed_of_runs h (abides_bind (runs_modify (m.abides_grant _)) fun _ _ ↦ abides_pure _)

private theorem informed_step (o : Observer) (depth : Nat) (hsound : m.IsSound config)
    (h : m.IsInformed IsRight D) (st : Step)
    (hright : ∀ response now, m.Delivers o depth st response now → ∀ id,
      now.session.farewell? response = some id → IsRight id (now.drop id).session now.host.log)
    (hshort : m.StopsShort o depth st → ∀ id, D id) :
    (m.step o depth st).2.IsInformed IsRight D := by
  rcases (informed_react o depth hsound h st hright).runWith_cases with hafter | ⟨hfault, hafter⟩
  · exact hafter
  · rcases hafter with hafter | ⟨hphase, htold⟩
    · exact hafter
    · exact ⟨htold, fun hconnected id _ ↦ .inl (hshort ⟨hphase, hconnected, hfault⟩ id)⟩

/-- The notifications before one in the same bytes keep what is known right. -/
theorem Delivers.knows {o : Observer} {depth : Nat} {st : Step} {response : Wire.Response}
    {now : Machine} (hdelivers : m.Delivers o depth st response now) (hsound : m.IsSound config)
    (h : m.IsInformed (fun _ _ _ ↦ True) D) : now.Knows D := by
  obtain ⟨front, back, next, hreads, hfront, -⟩ := hdelivers
  have hbecomes : m.Becomes (fun _ ↦ True) (o.tell depth) next := hreads.becomes
  have hnext : next.IsInformed (fun _ _ _ ↦ True) D := by
    generalize front ++ response :: back = responses at hreads
    cases hreads with
    | @bytes _ bytes n =>
      refine (h.abides (m.abides_located n.socket _)).abides (abides_putNotify _ _ ?_)
      exact n.asks_receive bytes (m.located n.socket (.received bytes)).host
  have hafter : (after (deliverAll (o.tell depth) front) next).IsInformed (fun _ _ _ ↦ True) D :=
    told_deliverAll (hears_tell o depth) (fun now hnow ↦ (hsound.becomes hnow).session.own)
      hbecomes hnext fun _ _ _ _ _ _ _ _ _ ↦ trivial
  rw [after, hfront] at hafter
  exact hafter.knows

/-! ### Runs -/

/-- Whether a notification in a run makes the session drop a peer, and the machine as it is when its
turn comes. -/
def Drops (o : Observer) (depth : Nat) (m : Machine) (steps : List Step) (id : Int)
    (now : Machine) : Prop :=
  ∃ done st rest response, steps = done ++ st :: rest ∧
    (m.run o depth done).Delivers o depth st response now ∧
    now.session.farewell? response = some id

/-- Whether a run signs the session in by a step that stops at a fault. -/
def StopsShortIn (o : Observer) (depth : Nat) (m : Machine) (steps : List Step) : Prop :=
  ∃ done st rest, steps = done ++ st :: rest ∧ (m.run o depth done).StopsShort o depth st

private theorem stopsShortIn_cons {o : Observer} {depth : Nat} {st : Step} {steps : List Step} :
    m.StopsShortIn o depth (st :: steps) ↔
      m.StopsShort o depth st ∨ (m.step o depth st).2.StopsShortIn o depth steps := by
  constructor
  · rintro ⟨_ | ⟨first, done⟩, st', rest, hsteps, hstops⟩
    · cases hsteps
      exact .inl hstops
    · cases hsteps
      exact .inr ⟨done, st', rest, rfl, hstops⟩
  · rintro (hstops | ⟨done, st', rest, rfl, hstops⟩)
    · exact ⟨[], st, steps, rfl, hstops⟩
    · exact ⟨st :: done, st', rest, rfl, hstops⟩

instance decidableStopsShort (o : Observer) (depth : Nat) (m : Machine) (st : Step) :
    Decidable (m.StopsShort o depth st) :=
  match hreply : (m.step o depth st).1 with
  | .fault f =>
    decidable_of_iff (m.session.phase = .signingIn ∧
      (m.step o depth st).2.session.phase = .connected)
      ⟨fun h ↦ ⟨h.1, h.2, f, hreply⟩, fun h ↦ ⟨h.1, h.2.1⟩⟩
  | .answer _ | .done | .absent | .fired =>
    isFalse fun ⟨_, _, _, hfault⟩ ↦ by cases hreply.symm.trans hfault

instance decidableStopsShortIn (o : Observer) (depth : Nat) (m : Machine) :
    (steps : List Step) → Decidable (m.StopsShortIn o depth steps)
  | [] => isFalse fun ⟨_, _, _, hsteps, _⟩ ↦ by simp at hsteps
  | st :: steps =>
    have := decidableStopsShortIn o depth (m.step o depth st).2 steps
    decidable_of_iff' _ stopsShortIn_cons

private theorem Drops.cons {o : Observer} {depth : Nat} {st : Step} {steps : List Step} {id : Int}
    {now : Machine} (h : (m.step o depth st).2.Drops o depth steps id now) :
    m.Drops o depth (st :: steps) id now := by
  obtain ⟨done, st', rest, response, rfl, hdelivers, hid⟩ := h
  exact ⟨st :: done, st', rest, response, rfl, hdelivers, hid⟩

/-- The induction is on the steps, from the first. -/
theorem informed_run (o : Observer) (depth : Nat) (hsound : m.IsSound config)
    (h : m.IsInformed IsRight D) {steps : List Step}
    (hright : ∀ id now, m.Drops o depth steps id now →
      IsRight id (now.drop id).session now.host.log)
    (hshort : m.StopsShortIn o depth steps → ∀ id, D id) :
    (m.run o depth steps).IsInformed IsRight D := by
  induction steps generalizing m with
  | nil => exact h
  | cons st rest ih =>
    have hstep : (m.step o depth st).2.IsInformed IsRight D :=
      informed_step o depth hsound h st
        (fun response now hdelivers id hid ↦
          hright id now ⟨[], st, rest, response, rfl, hdelivers, hid⟩)
        fun hstops ↦ hshort (stopsShortIn_cons.2 (.inl hstops))
    exact ih ((isKept_isSound config).step o depth hsound st) hstep
      (fun id now hdrops ↦ hright id now hdrops.cons)
      fun hstops ↦ hshort (stopsShortIn_cons.2 (.inr hstops))

private theorem informed_fresh (config : Config) (observed : Bool) (policy : Policy) :
    (fresh config observed policy).IsInformed IsRight D where
  told := ⟨fun _ _ _ ↦ List.not_mem_nil, trivial⟩
  knows := knows_of_left Session.Phase.noConfusion

/-- Where a run drops a peer, whoever is known has not been reported to have left since the last
report of joining, unless a step that signed the session in stopped at a fault. -/
theorem Drops.knows {observed : Bool} {policy : Policy} {o : Observer} {depth : Nat}
    {steps : List Step} {id : Int} {now : Machine}
    (h : (fresh config observed policy).Drops o depth steps id now) :
    now.IsSound config ∧
      now.Knows fun _ ↦ (fresh config observed policy).StopsShortIn o depth steps := by
  obtain ⟨done, st, rest, response, rfl, hdelivers, -⟩ := h
  have hsound := isSound_run config observed policy o depth done
  refine ⟨hdelivers.isSound hsound, hdelivers.knows hsound ?_⟩
  refine informed_run o depth (isSound_fresh config observed policy)
    (informed_fresh config observed policy) (fun _ _ _ ↦ trivial) ?_
  rintro ⟨front, st', back, rfl, hstops⟩ -
  exact ⟨front, st', back ++ st :: rest, by simp, hstops⟩

private theorem exists_heard_of_mem {e : Event} (h : e ∈ Observer.heard m) :
    ∃ s, .note (.heard e s) ∈ m.host.log := by
  obtain ⟨n, hn, hevent⟩ := List.mem_filterMap.1 h
  obtain ⟨line, hline, hnote⟩ := List.mem_filterMap.1 hn
  cases line with
  | action => cases hnote
  | note =>
    cases hnote
    cases n with
    | heard event s =>
      cases hevent
      exact ⟨s, List.mem_reverse.1 hline⟩
    | called => cases hevent

/-- In every run, nobody is reported to join under the session's own id, and a peer is reported to
have left only over a notification that makes the session drop it. This the session does without
asking whether it knows the peer. Where it does, the peer is not the session itself, and if it was
reported to have left before, it was reported to have joined since, unless the observer stopped a
step that signed the session in by a fault, so that some of those listed were not reported. -/
theorem departures_of_known (config : Config) (observed : Bool) (policy : Policy) (o : Observer)
    (depth : Nat) (steps : List Step) :
    let start := fresh config observed policy
    let log := (start.run o depth steps).host.log
    (∀ id name s, .note (.heard (.peerConnected id name) s) ∈ log → id ≠ s.selfId) ∧
    (∀ later id s earlier, log = later ++ .note (.heard (.peerDisconnected id) s) :: earlier →
      ∃ now, start.Drops o depth steps id now ∧ s = (now.drop id).session ∧
        earlier = now.host.log) ∧
    ∀ id now, start.Drops o depth steps id now → id ∈ now.session.directory.peers →
      id ≠ now.session.selfId ∧ (¬ start.StopsShortIn o depth steps →
        ∀ later s earlier,
          now.host.log = later ++ .note (.heard (.peerDisconnected id) s) :: earlier →
            ∃ name s, .note (.heard (.peerConnected id name) s) ∈ later) := by
  intro start log
  have hrun : (start.run o depth steps).IsInformed (fun id s earlier ↦
      ∃ now, start.Drops o depth steps id now ∧ s = (now.drop id).session ∧ earlier = now.host.log)
      fun _ ↦ start.StopsShortIn o depth steps :=
    informed_run o depth (isSound_fresh config observed policy)
      (informed_fresh config observed policy)
      (fun id now hdrops ↦ ⟨now, hdrops, rfl, rfl⟩) fun hshort _ ↦ hshort
  have hright : AllRight _ log := hrun.told.right
  refine ⟨fun id name s hjoin ↦ ?_, fun later id s earlier hlog ↦ ?_, fun id now hdrops hid ↦ ?_⟩
  · obtain ⟨later, earlier, hlog⟩ := List.append_of_mem hjoin
    rw [hlog] at hright
    exact hright.join
  · rw [hlog] at hright
    exact hright.departure
  · obtain ⟨hsound, hknows⟩ := hdrops.knows
    refine ⟨fun hself ↦ hsound.session.absent (hself ▸ hid), fun hwhole later s earlier hlog ↦ ?_⟩
    have hconnected : now.session.phase = .connected := by
      obtain ⟨_, _, _, _, _, ⟨_, _, _, _, _, hconnected⟩, _⟩ := hdrops
      exact hconnected
    have hthere := (hknows hconnected id hid).resolve_left hwhole
    exact NotGone.exists_join (hlog ▸ hthere)

/-- A session signs in under the id 7, where there is a peer 9, and its long poll is connected. -/
def acquainted : List Step := [
  .call (.connect (some "10.0.0.5") none none),
  .socket (.number 0) .connected,
  .socket (.number 0) (.received (Bytes.ofAscii
    "HTTP/1.1 200 OK\r\nPragma: 7\r\nContent-Length: 8\r\n\r\nbob,9,1\n")),
  .socket (.number 1) .connected]

/-- The peer 9 hangs up. -/
def hangingUp : Step := .socket (.number 1) (.received (Bytes.ofAscii
  "HTTP/1.1 200 OK\r\nPragma: 9\r\nContent-Length: 3\r\n\r\nBYE"))

/-- The server tells the session under the id 7 of an entry of eight characters. -/
def telling (entry : String) : Step := .socket (.number 1) (.received (Bytes.ofAscii
  ("HTTP/1.1 200 OK\r\nPragma: 7\r\nContent-Length: 8\r\n\r\n" ++ entry)))

/-- A peer that hangs up, joins again and hangs up again is known each time, and reported to have
joined in between. -/
theorem departures_of_known_rejoined :
    let start := fresh (Config.standard "alice") true {}
    let steps := acquainted ++ [hangingUp, telling "bob,9,1\n", hangingUp]
    ¬ start.StopsShortIn .silent 0 steps ∧
      ∃ now, start.Drops .silent 0 steps 9 now ∧ 9 ∈ now.session.directory.peers ∧
        ∃ later s earlier,
          now.host.log = later ++ .note (.heard (.peerDisconnected 9) s) :: earlier ∧
            ∃ name s, .note (.heard (.peerConnected 9 name) s) ∈ later := by
  intro start steps
  let before := start.run .silent 0 (acquainted ++ [hangingUp, telling "bob,9,1\n"])
  let n : NotifyLink := ⟨1, { limit := some 1048576 }, true⟩
  let bytes := Bytes.ofAscii "HTTP/1.1 200 OK\r\nPragma: 9\r\nContent-Length: 3\r\n\r\nBYE"
  let located := before.located 1 (.received bytes)
  let now := located.putNotify (n.receive bytes located.host).2.2
  obtain ⟨hwhole, hlink, hapart, hfound, hmore, hfirst, hconnected, hknown, hheard⟩ :
      ¬ start.StopsShortIn .silent 0 steps ∧ before.session.notify = some n ∧
        before.session.command.any (·.socket = 1) = false ∧
        before.find? (.number 1) = some 1 ∧ (n.receive bytes located.host).2.1 = .more ∧
        (n.receive bytes located.host).1.head?.bind now.session.farewell? = some 9 ∧
        now.session.phase = .connected ∧ 9 ∈ now.session.directory.peers ∧
        .peerDisconnected 9 ∈ Observer.heard now := by
    decide +kernel
  have hreads : before.ReadsNotices hangingUp (n.receive bytes located.host).1 now :=
    .bytes hlink hapart hfound fun e ↦ hmore ▸ NotifyLink.Outcome.noConfusion
  obtain ⟨response, hhead, hid⟩ := Option.bind_eq_some_iff.1 hfirst
  obtain ⟨back, hback⟩ := List.head?_eq_some_iff.1 hhead
  have hdrops : start.Drops .silent 0 steps 9 now :=
    ⟨acquainted ++ [hangingUp, telling "bob,9,1\n"], hangingUp, [], response, rfl,
      ⟨[], back, now, hback ▸ hreads, rfl, hconnected⟩, hid⟩
  obtain ⟨s, hgone⟩ := exists_heard_of_mem hheard
  obtain ⟨later, earlier, hlog⟩ := List.append_of_mem hgone
  obtain ⟨-, -, hdeparts⟩ := departures_of_known (Config.standard "alice") true {} .silent 0 steps
  exact ⟨hwhole, now, hdrops, hknown, later, s, earlier, hlog,
    (hdeparts 9 now hdrops hknown).2 hwhole later s earlier hlog⟩

/-- A peer that hangs up and then is said not to be connected is reported to have left twice, and
the session reports itself to have left. -/
theorem departures_hungUp :
    let start := fresh (Config.standard "alice") true {}
    let before := run .silent 0 start (acquainted ++ [hangingUp])
    let after := run .silent 0 before [telling "bob,9,0\n", telling "ali,7,0\n"]
    9 ∉ before.session.directory.peers ∧ after.session.selfId = 7 ∧
      Observer.heard after = [.peerConnected 9 "bob", .signedIn, .peerDisconnected 9,
        .peerDisconnected 9, .peerDisconnected 7] := by
  decide +kernel

end Machine

end Rendezvous
