import Rendezvous.Proofs.Session.Restart.Idle
import Rendezvous.Proofs.Session.Restart.Lift
import Rendezvous.Proofs.Session.Timing

/-!
# What two sessions at rest do

Of two sessions at rest, each call and each answer to a lookup gets the same out of both, and leaves
them at rest side by side. Once both open fresh links nothing is left of what came before: from then
on both are one machine, on a host with a past and on an unused one.
-/

namespace Rendezvous

namespace Machine

open SessionM

variable {α β : Type} {config : Config} {old m n m' n' : Machine} {known : Prop}
  {R R' : Machine → Machine → Prop} {x y : SessionM α} {base base' unused unused' : Host Note}

/-- Two computations come to the same answer or fault, do the same on the way, and leave machines in
a relation. -/
structure Abreast (old : Machine) (R : Machine → Machine → Prop) (x y : SessionM α)
    (m n : Machine) : Prop where
  answer : (x m).1 = (y n).1
  lines : SameLines old m n (x m).2 (y n).2
  after : R (x m).2 (y n).2

/-- The same value by itself. -/
theorem abreast_pure (h : R m n) (a : α) : Abreast old R (pure a) (pure a) m n :=
  ⟨rfl, sameLines_of_eq rfl rfl, h⟩

private theorem abreast_throw (h : R m n) (f : Fault) :
    Abreast old R (throw f : SessionM α) (throw f) m n :=
  ⟨rfl, sameLines_of_eq rfl rfl, h⟩

/-- Both look at themselves. -/
theorem abreast_get {f g : Machine → SessionM β} (h : Abreast old R (f m) (g n) m n) :
    Abreast old R (get >>= f) (get >>= g) m n :=
  ⟨h.answer, h.lines, h.after⟩

private theorem abreast_phase {f g : Session.Phase → SessionM β}
    (h : Abreast old R (f m.session.phase) (g n.session.phase) m n) :
    Abreast old R (SessionM.phase >>= f) (SessionM.phase >>= g) m n :=
  ⟨h.answer, h.lines, h.after⟩

/-- Machines that are alike in more are alike. -/
theorem Abreast.mono (h : Abreast old R x y m n) (hR : ∀ m' n', R m' n' → R' m' n') :
    Abreast old R' x y m n :=
  ⟨h.answer, h.lines, hR _ _ h.after⟩

/-- One after another. A fault in the first leaves the machines as it found them. -/
theorem Abreast.bind {f g : α → SessionM β} (hx : Abreast old R x y m n)
    (hfault : ∀ m' n', R m' n' → R' m' n')
    (hf : ∀ a m' n', R m' n' → Abreast old R' (f a) (g a) m' n') :
    Abreast old R' (x >>= f) (y >>= g) m n := by
  obtain ⟨hanswer, hlines, hafter⟩ := hx
  rcases hrun : x m with ⟨r, m'⟩
  rcases hrun' : y n with ⟨r', n'⟩
  rw [hrun, hrun'] at hanswer hlines hafter
  cases hanswer
  cases r with
  | error e =>
    refine ⟨?_, ?_, ?_⟩ <;> rw [bind_apply, bind_apply, hrun, hrun']
    · exact hlines
    · exact hfault m' n' hafter
  | ok a =>
    obtain ⟨hanswer', hlines', hafter'⟩ := hf a m' n' hafter
    refine ⟨?_, ?_, ?_⟩ <;> rw [bind_apply, bind_apply, hrun, hrun']
    · exact hanswer'
    · exact hlines.trans hlines'
    · exact hafter'

private theorem Abreast.map (hx : Abreast old R x y m n) (f : α → β) :
    Abreast old R (f <$> x) (f <$> y) m n := by
  rw [(bind_pure_comp f x).symm, (bind_pure_comp f y).symm]
  exact hx.bind (fun _ _ ↦ id) fun a _ _ h ↦ abreast_pure h (f a)

/-- Either branch, under its condition. -/
theorem Abreast.ite {p : Prop} [Decidable p] {x' y' : SessionM α} (hx : p → Abreast old R x y m n)
    (hy : ¬p → Abreast old R x' y' m n) :
    Abreast old R (if p then x else x') (if p then y else y') m n := by
  split
  · next hp => exact hx hp
  · next hp => exact hy hp

private theorem abreast_requireText (h : R m n) (k : Int) :
    Abreast old R (requireText k) (requireText k) m n :=
  Abreast.ite (fun _ ↦ abreast_throw h _) fun _ ↦ abreast_pure h _

/-- What changes both machines alike. -/
theorem abreast_modify {f g : Machine → Machine}
    (h : StaysParted config old known m n (f m) (g n)) :
    Abreast old (Parted config old known) (modify f) (modify g) m n :=
  ⟨rfl, h.lines, h.parted⟩

/-! ### One machine on two hosts -/

/-- A machine above a host in use, and the same machine above an unused one. -/
def Joined (d : Offset) (m n : Machine) : Prop :=
  ∃ (k : Machine) (base unused : Host Note), m = k.above base ∧ n = k.above unused ∧
    k.host.Follows base ∧ k.host.Follows unused ∧ base.offset = d ∧ unused.offset = ⟨0, 0⟩

/-- Whether the links of a machine are over sockets that were made. -/
def HasMade (old : Machine) : Prop := ∀ k, old.Owns k → k < old.host.offset.sockets

/-- A request with a shifted number closes no link that was there before. -/
theorem HasMade.not_drops (h : old.HasMade) (a : Action) :
    old.drops (a.shift old.host.offset) = false := by
  cases a with
  | close k =>
    rw [← Bool.not_eq_true]
    intro hdrops
    have howns : old.Owns (old.host.offset.sockets + k) := by
      simpa [drops, Action.shift, Owns, Option.any_eq_true] using hdrops
    exact absurd (h _ howns) (Nat.not_lt_of_le (Nat.le_add_right _ _))
  | _ => rfl

/-- What a machine adds to its log on a host in use and on an unused one. -/
theorem sameLines_above (hmade : old.HasMade) {k k' : Machine} {new : List (LogEntry Note)}
    (hnew : k'.host.log = new ++ k.host.log) (hoffset : base.offset = old.host.offset)
    (hoffset' : unused.offset = ⟨0, 0⟩) (hbase : base'.offset = base.offset)
    (hlog : base'.log = base.log) (hunused : unused'.offset = unused.offset)
    (hlog' : unused'.log = unused.log) :
    SameLines old (k.above base) (k.above unused) (k'.above base') (k'.above unused') := by
  have hadds {b b' : Host Note} (hb : b'.offset = b.offset) (hlines : b'.log = b.log) :
      (k'.above b').host.log = new.map (LogEntry.shift b.offset) ++ (k.above b).host.log := by
    show k'.host.log.map (LogEntry.shift b'.offset) ++ b'.log = _
    rw [hb, hlines, hnew, List.map_append, List.append_assoc]
    rfl
  refine ⟨_, _, hadds hbase hlog, hadds hunused hlog', ?_, ?_⟩
  · rw [heardIn_shift, heardIn_shift]
  · have hsame : Action.shift ⟨0, 0⟩ = id := funext Action.shift_zero
    rw [actions_shift, actions_shift, hoffset, hoffset', hsame, List.map_id, List.filter_eq_self]
    intro a ha
    obtain ⟨a, -, rfl⟩ := List.mem_map.1 ha
    rw [hmade.not_drops]
    rfl

/-- What knows nothing of the past of its host does the same on both. -/
theorem Joined.abreast (hmade : old.HasMade) (h : Joined old.host.offset m n)
    (hx : ∀ base, IsFresh base x) (hlog : ∀ k, ∃ new, (x k).2.host.log = new ++ k.host.log) :
    Abreast old (Joined old.host.offset) x x m n := by
  obtain ⟨k, base, unused, rfl, rfl, hbase, hunused, hoffset, hzero⟩ := h
  obtain ⟨hrun, hafter⟩ := hx base k hbase
  obtain ⟨hrun', hafter'⟩ := hx unused k hunused
  obtain ⟨new, hnew⟩ := hlog k
  refine ⟨?_, ?_, ?_⟩ <;> rw [hrun, hrun']
  · exact sameLines_above hmade hnew hoffset hzero rfl rfl rfl rfl
  · exact ⟨_, _, _, rfl, rfl, hafter, hafter', hoffset, hzero⟩

/-- The machine on an unused host that grants what its own host grants from now on. -/
def anew (m : Machine) : Machine :=
  { m with host := { policy := m.host.policy.since m.host.moment } }

private theorem above_anew (hcommand : m.session.command = none) (hnotify : m.session.notify = none)
    (hdisarmed : m.session.retry.isArmed = false) : m.anew.above m.host = m := by
  obtain ⟨config, observed, ⟨⟨delay, live⟩, p, a, c, i, d, command, notify, r⟩, host⟩ := m
  cases hcommand
  cases hnotify
  cases Option.isNone_iff_eq_none.1 (Option.isSome_eq_false_iff.1 hdisarmed)
  simp [above, anew, Host.above, Session.shift, RetryTimer.shift]

/-- Once the server and the name are the same and the old links are gone, the two are one. -/
theorem Parted.joined (h : Parted config old True m n) (hcommand : m.session.command = none)
    (hnotify : m.session.notify = none) : Joined old.host.offset m n := by
  have hsession : n.session = m.session := by
    obtain ⟨haddress, hname⟩ := h.named (.inl trivial)
    rw [h.session, ← haddress, ← hname, ← hcommand, ← hnotify]
  have hsame : m.anew = n.anew := by
    rw [anew, anew, h.made, h.made', h.observed, hsession, h.hosts.policy]
  have hfirst : m = m.anew.above m.host := (above_anew hcommand hnotify h.rest.disarmed).symm
  have hsecond : n = m.anew.above n.host := by
    rw [hsame]
    refine (above_anew ?_ ?_ ?_).symm <;> rw [hsession]
    · exact hcommand
    · exact hnotify
    · exact h.rest.disarmed
  exact ⟨m.anew, m.host, n.host, hfirst, hsecond, rfl, h.hosts.policy, h.hosts.offset,
    h.hosts.offset'⟩

/-- A session with a past, and one without, from the moment on that the first was over. -/
def Alike (config : Config) (old : Machine) (known : Prop) (m n : Machine) : Prop :=
  Joined old.host.offset m n ∨ Parted config old known m n

/-! ### Calls -/

/-- An observer that only listens notes what it is told, if there is one. -/
theorem tell_silent (depth : Nat) (e : Event) (m : Machine) : Observer.silent.tell depth e m =
    (.ok ⟨⟩, if m.observed then m.note (.heard e m.session) else m) := by
  obtain ⟨config, observed, session, host⟩ := m
  cases observed <;> cases depth <;> rfl

/-- Machines that are alike under one name and for one server are alike without it. -/
theorem Alike.mono {known' : Prop} (h : Alike config old known m n) (hknown : known' → known) :
    Alike config old known' m n :=
  h.imp_right fun h ↦ { h with named := fun hnamed ↦ h.named (hnamed.imp_left hknown) }

namespace Parted

/-- While both wait for an address, their servers and names are the same. -/
theorem learn {known' : Prop} (h : Parted config old known m n)
    (hknown : known' → known ∨ m.session.phase = .resolving) : Parted config old known' m n :=
  { h with named := fun hnamed ↦ h.named (hnamed.elim hknown .inr) }

variable (h : Parted config old known m n) (depth : Nat)

include h

private theorem abreast_tell (e : Event) : Abreast old (Parted config old known)
    (Observer.silent.tell depth e) (Observer.silent.tell depth e) m n := by
  have htold : StaysParted config old known m n
      (if m.observed then m.note (.heard e m.session) else m)
      (if n.observed then n.note (.heard e n.session) else n) := by
    rw [← h.observed]
    split
    · exact h.heard e
    · exact h.refl
  refine ⟨?_, ?_, ?_⟩ <;> rw [tell_silent, tell_silent]
  · exact htold.lines
  · exact htold.parted

private theorem abreast_fail : Abreast old (Parted config old known)
    (fail (Observer.silent.tell depth)) (fail (Observer.silent.tell depth)) m n :=
  (abreast_modify h.reset).bind (fun _ _ ↦ id) fun _ _ _ h ↦ h.abreast_tell depth .disconnected

private theorem abreast_failToConnect : Abreast old (Parted config old known)
    (failToConnect (Observer.silent.tell depth)) (failToConnect (Observer.silent.tell depth)) m n :=
  (abreast_modify h.reset).bind (fun _ _ ↦ id)
    fun _ _ _ h ↦ h.abreast_tell depth .connectionFailure

private theorem abreast_startLookup (hphase : m.session.phase = .resolving) (host : String)
    (port : Int) :
    Abreast old (Parted config old known) (startLookup host port) (startLookup host port) m n := by
  rw [startLookup]
  apply abreast_get
  rw [h.hosts.resolves, h.resolver]
  cases m.session.resolver.start? (n.host.policy.resolves n.host.moment) with
  | none => exact abreast_pure h false
  | some resolver =>
    have hlookup := h.lookup hphase resolver host port
    exact ⟨rfl, hlookup.lines, hlookup.parted⟩

private theorem abreast_sendTo (peer : Int) (payload : Except Wire.RequestError Bytes) :
    Abreast old (Parted config old known) (sendTo (Observer.silent.tell depth) peer payload)
      (sendTo (Observer.silent.tell depth) peer payload) m n := by
  have hout : m.session.phase ≠ .connected := by
    rcases h.rest.phase with hphase | hphase <;> simp [hphase]
  rw [sendTo]
  apply abreast_get
  rw [if_pos hout, if_pos (h.phase ▸ hout)]
  exact abreast_pure h false

private theorem abreast_signOut : Abreast old (Parted config old known)
    (signOut (Observer.silent.tell depth)) (signOut (Observer.silent.tell depth)) m n := by
  rw [signOut]
  apply abreast_phase
  rw [h.phase]
  refine Abreast.ite (fun _ ↦ abreast_pure h true) fun _ ↦ ?_
  refine (abreast_modify h.quiet).bind (fun _ _ ↦ id) fun _ m' n' h' ↦ abreast_get ?_
  have hidle : ¬ m'.session.command.any CommandLink.isBusy = true :=
    fun hbusy ↦ Session.exchange?_ne_none_of_isBusy hbusy h'.rest.exchange
  have hidle' : ¬ n'.session.command.any CommandLink.isBusy = true := by
    rw [h'.session]
    simp
  have hunset : n'.session.selfId = Peer.unsetId := by
    rw [h'.session]
    exact h'.rest.selfId
  rw [if_neg hidle, if_neg hidle', if_pos h'.rest.selfId, if_pos hunset]
  exact (h'.abreast_fail depth).bind (fun _ _ ↦ id) fun _ _ _ h ↦ abreast_pure h true

end Parted

/-- A computation that is timely only adds to the log. -/
theorem exists_log_eq (h : Ensures x m (fun _ ↦ Minds m.host.log) (Minds m.host.log)) :
    ∃ new, (x m).2.host.log = new ++ m.host.log := by
  rcases h.result with ⟨_, -, new, hlog, -⟩ | ⟨_, -, new, hlog, -⟩ <;> exact ⟨new, hlog⟩

namespace Parted

variable (hmade : old.HasMade) (depth : Nat)

include hmade

/-- Fresh links are opened on both, and what comes of it is the same with the past and without. -/
theorem abreast_dial (h : Parted config old True m n) : Abreast old (Alike config old True)
    (dial (Observer.silent.tell depth)) (dial (Observer.silent.tell depth)) m n := by
  have hdial (k : Machine) : dial (Observer.silent.tell depth) k.dropped =
      dial (Observer.silent.tell depth) k := rfl
  have hdropped := h.dropped
  have hjoined : Joined old.host.offset m.dropped n.dropped := by
    apply hdropped.parted.joined <;> rw [session_dropped]
  have hboth := hjoined.abreast hmade (fun base ↦ isFresh_dial (tellsFresh_silent depth))
    fun k ↦ exists_log_eq (follows_dial (heeds_tell .silent depth) (Untold.refl k).minds).minds
  refine ⟨?_, ?_, ?_⟩ <;> rw [← hdial m, ← hdial n]
  · exact hboth.answer
  · exact hdropped.lines.trans hboth.lines
  · exact .inl hboth.after

/-- A call for a connection is turned down by both, or has the same server and name in both. -/
theorem abreast_connect (h : Parted config old known m n) (server : Option String)
    (port : Option Int) (name : Option Text.Raw) :
    Abreast old (Alike config old (known ∨ (Step.call (.connect server port name)).Names config))
      (connect (Observer.silent.tell depth) server port name)
      (connect (Observer.silent.tell depth) server port name) m n := by
  rw [connect]
  apply abreast_get
  rw [h.made, h.made', h.phase]
  refine Abreast.ite (fun hrefused ↦ ?_) fun _ ↦ ?_
  · have hlearnt : Parted config old
        (known ∨ (Step.call (.connect server port name)).Names config) m n := by
      refine h.learn (Or.imp_right fun hnames ↦ ?_)
      apply h.rest.phase.resolve_left
      intro hover
      simp [hover, hnames.1, hnames.2] at hrefused
    exact (hlearnt.abreast_tell depth .connectionFailure).bind (fun _ _ ↦ .inr)
      fun _ _ _ h ↦ abreast_pure (.inr h) false
  · refine Abreast.mono (R := Alike config old True) ?_ fun _ _ h ↦ h.mono fun _ ↦ trivial
    refine (abreast_modify (h.remember _ _)).bind (fun _ _ ↦ .inr) fun _ m₁ n₁ h ↦ ?_
    refine (abreast_requireText h _).bind (fun _ _ ↦ .inr) fun _ m₁ n₁ h ↦ ?_
    refine Abreast.ite (fun _ ↦ ?_) fun _ ↦ h.abreast_dial hmade depth
    have hentered : Abreast old
        (fun m n ↦ Parted config old True m n ∧ m.session.phase = .resolving)
        (enter .resolving) (enter .resolving) m₁ n₁ :=
      ⟨rfl, h.resolving.lines, h.resolving.parted, rfl⟩
    refine hentered.bind (fun _ _ h ↦ .inr h.1) fun _ m₂ n₂ h ↦ ?_
    refine (h.1.abreast_startLookup h.2 _ _).bind (fun _ _ ↦ .inr) fun started m₃ n₃ h ↦ ?_
    refine Abreast.ite (fun _ ↦ abreast_pure (.inr h) true) fun _ ↦ ?_
    exact (h.abreast_failToConnect depth).bind (fun _ _ ↦ .inr)
      fun _ _ _ h ↦ abreast_pure (.inr h) false

/-- Both answer a call alike, and have the same name and server once it gives both. -/
theorem abreast_perform (h : Parted config old known m n) (c : Call) :
    Abreast old (Alike config old (known ∨ (Step.call c).Names config))
      (perform (Observer.silent.tell depth) c) (perform (Observer.silent.tell depth) c) m n := by
  have hrest {x : SessionM (Option Bool)} (hx : Abreast old (Parted config old known) x x m n)
      (hc : ¬ (Step.call c).Names config) :
      Abreast old (Alike config old (known ∨ (Step.call c).Names config)) x x m n :=
    hx.mono fun _ _ h ↦ Alike.mono (.inr h) fun hknown ↦ hknown.resolve_right hc
  cases c with
  | connect server port name => exact (h.abreast_connect hmade depth server port name).map _
  | send peer text => exact hrest ((h.abreast_sendTo depth peer _).map _) id
  | sendBytes peer payload => exact hrest ((h.abreast_sendTo depth peer _).map _) id
  | hangUp peer => exact hrest ((h.abreast_sendTo depth peer _).map _) id
  | signOut => exact hrest ((h.abreast_signOut depth).map _) id
  | close =>
    have hclosed := (abreast_modify h.reset).bind (fun _ _ ↦ id) fun _ _ _ h ↦
      abreast_pure (R := Parted config old known) h (none : Option Bool)
    exact hrest hclosed id

/-- An answer to a lookup counts while both wait for it, and their servers are the same then. -/
theorem abreast_onAnswer (h : Parted config old known m n) (ip : Option String) :
    Abreast old (Alike config old known) (onAnswer (Observer.silent.tell depth) ip)
      (onAnswer (Observer.silent.tell depth) ip) m n := by
  rcases h.rest.phase with hphase | hphase
  · cases ip <;> rw [onAnswer, SessionM.react] <;> apply abreast_phase <;>
      rw [h.phase, hphase] <;> exact abreast_pure (.inr h) _
  · cases ip with
    | none =>
      rw [onAnswer, SessionM.react]
      apply abreast_phase
      rw [h.phase, hphase]
      exact (h.abreast_failToConnect depth).mono fun _ _ ↦ .inr
    | some ip =>
      rw [onAnswer, SessionM.react]
      apply abreast_phase
      rw [h.phase, hphase]
      refine (abreast_modify (h.resolved hphase ip)).bind
        (fun _ _ h ↦ Alike.mono (.inr h) fun _ ↦ trivial) fun _ _ _ h ↦ ?_
      exact ((h.abreast_dial hmade depth).map _).mono fun _ _ h ↦ h.mono fun _ ↦ trivial

end Parted

end Machine

end Rendezvous
