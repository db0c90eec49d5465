import Rendezvous.Proofs.Session.Restart.Abreast
import Rendezvous.Proofs.Session.Sound

/-!
# A session that is over is as good as new

Whatever a session went through before it was disconnected, from then on it goes the way of one that
was made just now: it gives the same answers, its observer hears the same, and it asks the same of
its host, with sockets and timers numbered from where it stopped, except that it closes links that
were left. The server's address, which a session keeps when it ends, agrees too from the first call
for a connection that names a server and a client.
-/

namespace Rendezvous

namespace Machine

open SessionM

variable {base : Host Note} {old m n : Machine} {config : Config} {known : Prop} {s : Step}

private theorem runWith_above {x y : SessionM Reply} (h : Lifts base x y m)
    (hfollows : m.host.Follows base) :
    (m.above base).runWith y = ((m.runWith x).1, (m.runWith x).2.above base) ∧
      (m.runWith x).2.host.Follows base := by
  obtain ⟨hanswer, hafter⟩ := h hfollows
  rw [runWith, runWith, hanswer]
  rcases hrun : x m with ⟨e | a, after⟩ <;> rw [hrun] at hafter <;> exact ⟨rfl, hafter⟩

private theorem find?_above (k : Nat) :
    (m.above base).find? (.number (base.offset.sockets + k)) =
      (m.find? (.number k)).map (base.offset.sockets + ·) := by
  simp only [find?, above, Host.above, Host.offset, List.length_append]
  by_cases hk : k < m.host.sockets.length
  · rw [if_pos hk, if_pos (by omega)]
    rfl
  · rw [if_neg hk, if_neg (by omega)]
    rfl

/-- A step above a host in use is the step without it. -/
theorem step_above (hfollows : m.host.Follows base) (hs : s.IsNumbered) (depth : Nat) :
    (m.above base).step .silent depth (s.shift base.offset) =
        ((m.step .silent depth s).1, (m.step .silent depth s).2.above (base.regrant s)) ∧
      (m.step .silent depth s).2.host.Follows (base.regrant s) := by
  have htell : TellsFresh base (Observer.silent.tell depth) := tellsFresh_silent depth
  cases s with
  | call c =>
    exact runWith_above (IsFresh.bind (isFresh_perform htell c) (fun _ ↦ isFresh_pure _) m) hfollows
  | observe =>
    have hobserve : IsFresh base (modify ({ · with observed := true })) :=
      fun _ ↦ lifts_modify rfl (.refl _)
    have hrest : IsFresh base (do
        modify ({ · with observed := true })
        return Reply.answer none) := hobserve.bind fun _ ↦ isFresh_pure _
    refine runWith_above (lifts_get (Lifts.ite Iff.rfl (fun _ ↦ ?_) fun _ ↦ ?_)) hfollows
    · exact IsFresh.bind (isFresh_throw _) (fun _ ↦ hrest) m
    · exact hrest m
  | answer ip =>
    refine runWith_above (lifts_get (Lifts.ite Iff.rfl (fun _ ↦ ?_) fun _ ↦ ?_)) hfollows
    · exact IsFresh.bind (isFresh_onLookup htell ip) (fun _ ↦ isFresh_pure _) m
    · exact isFresh_pure _ m
  | lateAnswer ip =>
    exact runWith_above (IsFresh.bind (isFresh_onAnswer htell ip) (fun _ ↦ isFresh_pure _) m)
      hfollows
  | fire t =>
    refine runWith_above (lifts_get (Lifts.ite ?_ (fun _ ↦ ?_) fun _ ↦ ?_)) hfollows
    · exact (Nat.add_lt_add_iff_left).symm
    · exact Lifts.bind (lifts_onTimer htell t) fun _ ↦ isFresh_pure _
    · exact isFresh_pure _ m
  | socket ref event =>
    cases ref with
    | newest role => exact hs.elim
    | number k =>
      refine runWith_above (lifts_get ?_) hfollows
      simp only [find?_above]
      cases hfound : m.find? (.number k) with
      | none => exact isFresh_pure _ m
      | some k' => exact Lifts.bind (lifts_onSocket htell k' event) fun _ ↦ isFresh_pure _
  | accept role granted =>
    exact ⟨rfl, congrArg (Step.accept role granted).regrant hfollows⟩
  | sendable role granted =>
    exact ⟨rfl, congrArg (Step.sendable role granted).regrant hfollows⟩
  | resolvable granted =>
    exact ⟨rfl, congrArg (Step.resolvable granted).regrant hfollows⟩

/-- After a step, what was granted before is granted, but for what the step itself changes. -/
theorem policy_step (m : Machine) (hs : s.IsNumbered) (depth : Nat) :
    (m.step .silent depth s).2.host.policy = s.regrant m.host.policy :=
  have hfollows : m.host.Follows { policy := m.host.policy } := rfl
  (step_above hfollows hs depth).2

/-- What a host grants after a run is what the steps of the run make of it. -/
theorem policy_run (m : Machine) {steps : List Step} (hs : ∀ s ∈ steps, s.IsNumbered)
    (depth : Nat) : (run .silent depth m steps).host.policy =
      steps.foldl (fun p s ↦ s.regrant p) m.host.policy := by
  induction steps generalizing m with
  | nil => rfl
  | cons s rest ih =>
    obtain ⟨hfirst, hrest⟩ := List.forall_mem_cons.1 hs
    rw [List.foldl_cons, ← m.policy_step hfirst depth]
    exact ih _ hrest

/-! ### What can be told of a step -/

/-- A step of a machine on a host that an old one used and a step of another machine on an unused
host come to the same as far as anyone can tell: the same reply, the same events, the same requests
but for the numbers of sockets and timers and the closing of links that the old machine had, and the
same state. -/
structure SameStep (old m n : Machine) (out out' : Reply × Machine) : Prop where
  reply : out.1 = out'.1
  heard : heardIn (m.newLines out.2) = heardIn (n.newLines out'.2)
  asked : (Host.actions (m.newLines out.2)).filter (!old.drops ·) =
    (Host.actions (n.newLines out'.2)).map (Action.shift old.host.offset)
  phase : out.2.session.phase = out'.2.session.phase
  selfId : out.2.session.selfId = out'.2.session.selfId
  peers : out.2.session.directory.peers = out'.2.session.directory.peers
  sending : out.2.session.isSending = out'.2.session.isSending

private theorem isSending_shift (s : Session) (d : Offset) : (s.shift d).isSending = s.isSending :=
  congrArg (fun busy ↦ decide (s.phase = .connected) && busy) (any_isBusy_shift s d)

/-- Sessions that are alike show the same. -/
theorem Alike.sameStep {out out' : Reply × Machine} (h : Alike config old known out.2 out'.2)
    (hreply : out.1 = out'.1) (hlines : SameLines old m n out.2 out'.2) :
    SameStep old m n out out' := by
  obtain ⟨new, new', hlog, hlog', hheard, hasked⟩ := hlines
  have hshown : out.2.session.phase = out'.2.session.phase ∧
      out.2.session.selfId = out'.2.session.selfId ∧
      out.2.session.directory.peers = out'.2.session.directory.peers ∧
      out.2.session.isSending = out'.2.session.isSending := by
    rcases h with ⟨k, base, unused, hm, hn, -⟩ | hparted
    · rw [hm, hn]
      exact ⟨rfl, rfl, rfl, (isSending_shift _ _).trans (isSending_shift _ _).symm⟩
    · have hout : out.2.session.phase ≠ .connected := by
        rcases hparted.rest.phase with hphase | hphase <;> simp [hphase]
      rw [hparted.session]
      simp [Session.isSending, hout]
  obtain ⟨hphase, hself, hpeers, hsending⟩ := hshown
  refine ⟨hreply, ?_, ?_, hphase, hself, hpeers, hsending⟩
  · rw [newLines_of_append hlog, newLines_of_append hlog', hheard]
  · rw [newLines_of_append hlog, newLines_of_append hlog', hasked]

/-- What two computations come to as steps. -/
theorem Abreast.runWith {x y : SessionM Reply} (h : Abreast old (Alike config old known) x y m n) :
    SameStep old m n (m.runWith x) (n.runWith y) ∧
      Alike config old known (m.runWith x).2 (n.runWith y).2 := by
  have hafter {k : Machine} {z : SessionM Reply} : (k.runWith z).2 = (z k).2 := by
    rw [Machine.runWith]
    rcases z k with ⟨_ | _, _⟩ <;> rfl
  have hreply : (m.runWith x).1 = (n.runWith y).1 := by
    have hanswer := h.answer
    rw [Machine.runWith, Machine.runWith]
    rcases hx : x m with ⟨r, _⟩
    rcases hy : y n with ⟨r', _⟩
    rw [hx, hy] at hanswer
    cases hanswer
    cases r <;> rfl
  have halike : Alike config old known (m.runWith x).2 (n.runWith y).2 := by
    rw [hafter, hafter]
    exact h.after
  refine ⟨halike.sameStep hreply ?_, halike⟩
  rw [hafter, hafter]
  exact h.lines

/-- One machine on two hosts goes on as one. -/
theorem Joined.step (hmade : old.HasMade) (h : Joined old.host.offset m n) (hs : s.IsNumbered)
    (depth : Nat) :
    SameStep old m n (m.step .silent depth (s.shift old.host.offset)) (n.step .silent depth s) ∧
      Joined old.host.offset (m.step .silent depth (s.shift old.host.offset)).2
        (n.step .silent depth s).2 := by
  obtain ⟨k, base, unused, rfl, rfl, hbase, hunused, hoffset, hzero⟩ := h
  obtain ⟨hstep, hafter⟩ := step_above hbase hs depth
  obtain ⟨hstep', hafter'⟩ := step_above hunused hs depth
  rw [hzero, Step.shift_zero] at hstep'
  obtain ⟨new, hlog, -⟩ := k.minds_step_log .silent depth s
  rw [← hoffset, hstep, hstep']
  have hjoined : Joined base.offset ((k.step .silent depth s).2.above (base.regrant s))
      ((k.step .silent depth s).2.above (unused.regrant s)) :=
    ⟨_, _, _, rfl, rfl, hafter, hafter', rfl, hzero⟩
  have halike : Alike k.config old True ((k.step .silent depth s).2.above (base.regrant s))
      ((k.step .silent depth s).2.above (unused.regrant s)) := .inl (hoffset ▸ hjoined)
  exact ⟨halike.sameStep rfl (sameLines_above hmade hlog hoffset hzero rfl rfl rfl rfl), hjoined⟩

private theorem Parted.abreast_grant (h : Parted config old known m n) (s : Step) :
    Abreast old (Alike config old known)
      (do modify (·.grant s.regrant); return Reply.answer none)
      (do modify (·.grant s.regrant); return Reply.answer none) m n := by
  have hboth : StaysParted config old known m n (m.grant s.regrant) (n.grant s.regrant) :=
    ⟨sameLines_of_eq rfl rfl, { h with hosts := h.hosts.regrant s }⟩
  exact (abreast_modify hboth).bind (fun _ _ ↦ .inr) fun _ _ _ h ↦ abreast_pure (.inr h) _

private theorem Parted.find?_number (h : Parted config old known m n) (k : Nat) :
    m.find? (.number (old.host.offset.sockets + k)) = none ∧ n.find? (.number k) = none := by
  constructor
  · rw [← h.hosts.offset]
    exact if_neg (Nat.not_lt_of_le (Nat.le_add_right _ _))
  · rw [find?, show n.host.sockets.length = 0 from congrArg Offset.sockets h.hosts.offset']
    exact if_neg (Nat.not_lt_zero k)

private theorem Parted.not_lt_timers (h : Parted config old known m n) (t : Nat) :
    ¬ old.host.offset.timers + t < m.host.timers ∧ ¬ t < n.host.timers := by
  constructor
  · rw [← h.hosts.offset]
    exact Nat.not_lt_of_le (Nat.le_add_right _ _)
  · rw [show n.host.timers = 0 from congrArg Offset.timers h.hosts.offset']
    exact Nat.not_lt_zero t

/-- Of two sessions at rest nothing was made since, so that sockets and timers there are none. -/
theorem Parted.step (hmade : old.HasMade) (h : Parted config old known m n) (hs : s.IsNumbered)
    (depth : Nat) :
    SameStep old m n (m.step .silent depth (s.shift old.host.offset)) (n.step .silent depth s) ∧
      Alike config old (known ∨ s.Names config)
        (m.step .silent depth (s.shift old.host.offset)).2 (n.step .silent depth s).2 := by
  have hstill {x y : SessionM Reply} (hx : Abreast old (Alike config old known) x y m n)
      (hnot : ¬ s.Names config) : Abreast old (Alike config old (known ∨ s.Names config)) x y m n :=
    hx.mono fun _ _ h ↦ h.mono fun hknown ↦ hknown.resolve_right hnot
  have hgrant := h.abreast_grant s
  apply Abreast.runWith
  cases s with
  | call c =>
    exact (h.abreast_perform hmade depth c).bind (fun _ _ ↦ id) fun _ _ _ h ↦ abreast_pure h _
  | observe =>
    refine hstill (abreast_get ?_) id
    rw [h.observed]
    have hobserve : StaysParted config old known m n { m with observed := true }
        { n with observed := true } := ⟨sameLines_of_eq rfl rfl, { h with observed := rfl }⟩
    refine Abreast.ite (fun _ ↦ ?_) fun _ ↦ ?_
    · exact ⟨rfl, sameLines_of_eq rfl rfl, .inr h⟩
    · exact (abreast_modify hobserve).bind (fun _ _ ↦ .inr) fun _ _ _ h ↦ abreast_pure (.inr h) _
  | answer ip =>
    refine hstill (abreast_get ?_) id
    rw [h.resolver]
    refine Abreast.ite (fun _ ↦ ?_) fun _ ↦ abreast_pure (.inr h) _
    have hlookup : Abreast old (Alike config old known) (onLookup (Observer.silent.tell depth) ip)
        (onLookup (Observer.silent.tell depth) ip) m n :=
      (abreast_modify h.lookedUp).bind (fun _ _ ↦ .inr)
        fun _ _ _ h ↦ h.abreast_onAnswer hmade depth ip
    exact hlookup.bind (fun _ _ ↦ id) fun _ _ _ h ↦ abreast_pure h _
  | lateAnswer ip =>
    have hanswer := (h.abreast_onAnswer hmade depth ip).bind (fun _ _ ↦ id)
      fun _ _ _ h ↦ abreast_pure h Reply.done
    exact hstill hanswer id
  | fire t =>
    obtain ⟨htimers, htimers'⟩ := h.not_lt_timers t
    refine hstill (abreast_get ?_) id
    rw [if_neg htimers, if_neg htimers']
    exact abreast_pure (.inr h) _
  | socket ref event =>
    cases ref with
    | newest role => exact hs.elim
    | number k =>
      obtain ⟨hfound, hfound'⟩ := h.find?_number k
      refine hstill (abreast_get ?_) id
      simp only [hfound, hfound']
      exact abreast_pure (.inr h) _
  | accept role granted => exact hstill hgrant id
  | sendable role granted => exact hstill hgrant id
  | resolvable granted => exact hstill hgrant id

private theorem Alike.step (hmade : old.HasMade) (h : Alike config old known m n)
    (hs : s.IsNumbered) (depth : Nat) :
    SameStep old m n (m.step .silent depth (s.shift old.host.offset)) (n.step .silent depth s) ∧
      Alike config old (known ∨ s.Names config)
        (m.step .silent depth (s.shift old.host.offset)).2 (n.step .silent depth s).2 := by
  rcases h with hjoined | hparted
  · obtain ⟨hsame, hafter⟩ := hjoined.step hmade hs depth
    exact ⟨hsame, .inl hafter⟩
  · exact hparted.step hmade hs depth

/-! ### Runs -/

private theorem Alike.run (hmade : old.HasMade) (h : Alike config old known m n) (depth : Nat)
    {steps : List Step} (hs : ∀ s ∈ steps, s.IsNumbered) :
    Alike config old (known ∨ ∃ s ∈ steps, s.Names config)
      (run .silent depth m (steps.map (Step.shift old.host.offset)))
      (run .silent depth n steps) := by
  induction steps generalizing known m n with
  | nil => exact h.mono fun hknown ↦ hknown.resolve_right (by simp)
  | cons s rest ih =>
    obtain ⟨hfirst, hrest⟩ := List.forall_mem_cons.1 hs
    refine (ih (h.step hmade hfirst depth).2 hrest).mono fun hknown ↦ ?_
    simpa [or_assoc] using hknown

/-- Once a call named a server and a client, the server's address is the same. -/
theorem Alike.address (h : Alike config old True m n) :
    m.session.address = n.session.address := by
  rcases h with ⟨k, base, unused, rfl, rfl, -⟩ | hparted
  · rfl
  · exact (hparted.named (.inl trivial)).1

private theorem run_concat (o : Observer) (depth : Nat) (m : Machine) (steps : List Step)
    (s : Step) :
    run o depth m (steps ++ [s]) = ((run o depth m steps).step o depth s).2 := by
  rw [run, List.foldl_append]
  rfl

/-- A session that is over, whatever it went through, goes from then on the way of one that was made
just now for the same settings, observer and host: step by step it gives the same replies, is heard
to do the same and asks the same, but for the numbers of sockets and timers, and for the closing of
links that it still has, which no exchange ever used. The server's address is the same too after a
call that names a server and a client. -/
theorem restart_like_fresh (config : Config) (observed : Bool) (policy : Policy) (o : Observer)
    (depth depth' : Nat) (past : List Step)
    (hover : (run o depth' (fresh config observed policy) past).session.phase = .disconnected)
    (steps : List Step) (s : Step) (hnumbered : ∀ s' ∈ steps ++ [s], s'.IsNumbered) :
    let old := run o depth' (fresh config observed policy) past
    let new := fresh config old.observed (old.host.policy.since old.host.moment)
    let d := old.host.offset
    let m := run .silent depth old (steps.map (Step.shift d))
    let n := run .silent depth new steps
    SameStep old m n (m.step .silent depth (s.shift d)) (n.step .silent depth s) ∧
      ((∃ s' ∈ steps ++ [s], s'.Names config) →
        (m.step .silent depth (s.shift d)).2.session.address =
          (n.step .silent depth s).2.session.address) := by
  intro old new d m n
  have hsound : old.IsSound config := isSound_run config observed policy o depth' past
  have hended : old.session.IsOver := hsound.session.ended hover
  have hmade : old.HasMade := by
    rintro k (⟨c, hc, rfl⟩ | ⟨l, hl, rfl⟩)
    · exact Host.lt_of_role (hsound.command c.socket (Option.mem_map_of_mem _ hc))
    · exact Host.lt_of_role (hsound.notify l hl).2
  have hsession : new.session = {
      old.session with
      address := new.session.address
      clientName := new.session.clientName
      command := none
      notify := none } := by
    rw [hended.eq_unused, hsound.delay]
    rfl
  have hstart : Alike config old False old new := .inr {
    made := hsound.made
    made' := rfl
    observed := rfl
    rest := hended.isAtRest
    session := hsession
    named := fun hnamed ↦ hnamed.elim False.elim fun hphase ↦ by cases hover.symm.trans hphase
    owned := fun _ ↦ id
    hosts := ⟨rfl, rfl, rfl⟩ }
  obtain ⟨hsteps, hs⟩ := List.forall_mem_append.1 hnumbered
  have halike := hstart.run hmade depth hsteps
  refine ⟨(halike.step hmade (hs s (List.mem_singleton_self s)) depth).1, fun hnames ↦ ?_⟩
  have hnamed : Alike _ _ True _ _ :=
    (hstart.run hmade depth hnumbered).mono fun _ ↦ .inr hnames
  rw [List.map_append, List.map_singleton, run_concat, run_concat] at hnamed
  exact hnamed.address

/-- The server refuses the first attempt to sign in, and drops the connection of the second. -/
def lostOnce : List Step := [
  .call (.connect (some "10.0.0.5") none none),
  .socket (.newest .command) (.closed Channel.refusedCode),
  .fire 0,
  .socket (.newest .command) .connected,
  .socket (.newest .command) (.closed 104)]

/-- After four sockets and a timer, signing in elsewhere goes the way of a first time. -/
theorem restart_like_fresh_lostOnce :
    let old := run .silent 0 (fresh (Config.standard "alice") true {}) lostOnce
    let new := fresh (Config.standard "alice") old.observed
      (old.host.policy.since old.host.moment)
    let d := old.host.offset
    let call := Step.call (.connect (some "10.0.0.7") none (some "bob"))
    let up := Step.socket (.number 0) .connected
    let m := (old.step .silent 0 call).2
    let n := (new.step .silent 0 call).2
    let out := m.step .silent 0 (up.shift d)
    let out' := n.step .silent 0 up
    (old.session.phase = .disconnected ∧ d = ⟨4, 1⟩ ∧ ∀ s ∈ [call, up], s.IsNumbered) ∧
      SameStep old m n out out' ∧ out.2.session.address = out'.2.session.address := by
  intro old new d call up m n out out'
  have hover : old.session.phase = .disconnected := by decide +kernel
  have hoffset : d = ⟨4, 1⟩ := by decide +kernel
  have hnumbered : ∀ s ∈ [call, up], s.IsNumbered := by decide +kernel
  have hnames : call.Names (Config.standard "alice") := ⟨by decide +kernel, by decide +kernel⟩
  obtain ⟨hsame, haddress⟩ := restart_like_fresh (Config.standard "alice") true {} .silent 0 0
    lostOnce hover [call] up hnumbered
  exact ⟨⟨hover, hoffset, hnumbered⟩, hsame, haddress ⟨call, by simp, hnames⟩⟩

end Machine

end Rendezvous
