import Rendezvous.Network.Inquiry
import Rendezvous.Proofs.Network.Basic

/-!
# A resolver answers its latest errand only

What takes place at a resolver is written down moment by moment: the calls of its owner, the lookups
that start, what happens on the network, and the answers that are handed over. From the moments
alone one can read how far the start that was granted last has come. Lookups that are not made for
it bring nothing, and whether the resolver is busy depends on it alone.
-/

namespace Rendezvous.Network

/-- Whether no lookup but the given one is pending. -/
def Pends (n : Network) (live : Option Nat) : Prop :=
  ∀ k l, n.lookups[k]? = some l → l.pending = true → live = some k

namespace Inquiry

/-! ### Moments -/

/-- Something that takes place at a resolver. -/
inductive Mark where
  /-- The owner makes a call. -/
  | asked (c : InquiryCall) (a : InquiryAnswer)
  /-- A lookup starts. -/
  | began (lookup : Nat) (host : String) (port : Int) (family : Family)
  /-- Something happens on the network. -/
  | befell (e : Event)
  /-- An answer is handed to the owner. -/
  | told (host : String) (answer : Answer)
  deriving DecidableEq

/-- Something that takes place, and whether the resolver is busy right after it. -/
structure Moment where
  mark : Mark
  inFlight : Bool

/-- How far the start that was granted last has come, by the number of moments before it: nothing is
left of it, its lookup has not started or is pending, or the lookup ended without an answer. -/
inductive Errand where
  | none
  | wanted (start : Nat) (host : String) (port : Int)
  | pending (start : Nat) (lookup : Nat) (host : String)
  | stuck (start : Nat) (lookup : Nat) (host : String)

/-- Whether such an errand keeps a resolver from another. -/
def Errand.isBusy : Errand → Bool
  | .none => false
  | .wanted _ _ _ => true
  | .pending _ _ _ => true
  | .stuck _ _ _ => true

/-- The lookup that is pending for an errand. -/
def Errand.lookup? : Errand → Option Nat
  | .pending _ k _ => some k
  | _ => Option.none

/-- The answer to an errand that an event brings. -/
def Errand.answer? : Errand → Event → Option (String × Answer)
  | .pending _ k host, e =>
    if e.lookup? = some k then (e.answer? host).map (Prod.mk host) else Option.none
  | _, _ => Option.none

/-- How far the errand has come after something took place at a numbered moment. -/
def Errand.after (d : Errand) (now : Nat) : Mark → Errand
  | .asked (.start host port) (.accepted true) => .wanted now host port
  | .asked .cancel _ => .none
  | .began k _ _ _ => match d with
    | .wanted start host _ => .pending start k host
    | d => d
  | .befell e => match d with
    | .pending start k host =>
      if e.lookup? = some k then if (e.answer? host).isSome then .none else .stuck start k host
      else .pending start k host
    | d => d
  | _ => d

/-- How far the start that was granted last has come, newest moment first. -/
def errand : List Moment → Errand
  | [] => .none
  | x :: past => (errand past).after past.length x.mark

/-- The answer that has still to be handed over. -/
def owed : List Moment → Option (String × Answer)
  | ⟨.befell e, _⟩ :: past => (errand past).answer? e
  | _ => none

/-- Whether a lookup has started. -/
def HasBegun (k : Nat) (past : List Moment) : Prop :=
  ∃ x ∈ past, ∃ host port family, x.mark = .began k host port family

/-- Whether a moment is right, given those before it, newest first. -/
structure Moment.Fits (family : Family) (online : Bool) (past : List Moment) (x : Moment) :
    Prop where
  /-- The resolver is busy just with the start that was granted last. -/
  inFlight : x.inFlight = (errand (x :: past)).isBusy
  /-- The answer to that start is handed over, no other one is, and at once. -/
  told : ∀ host answer, x.mark = .told host answer ↔ owed past = some (host, answer)
  /-- A start is granted just where the resolver is not busy. -/
  start : ∀ host port a, x.mark = .asked (.start host port) a →
    a = .accepted (online && !(errand past).isBusy)
  /-- Giving up is never refused. -/
  cancel : ∀ a, x.mark = .asked .cancel a → a = .cancelled
  /-- Every lookup is for the start that was granted last, and is a new one. -/
  began : ∀ k host port f, x.mark = .began k host port f →
    f = family ∧ (∃ start, errand past = .wanted start host port) ∧ ¬ HasBegun k past

/-- Whether every moment is right. -/
def AllFit (family : Family) (online : Bool) : List Moment → Prop
  | [] => True
  | x :: past => x.Fits family online past ∧ AllFit family online past

/-! ### What takes place in a step -/

/-- The lookups that start. -/
def started (seen : List Signal) (inFlight : Bool) : List Moment :=
  seen.reverse.filterMap fun
    | .lookup k host port family => some ⟨.began k host port family, inFlight⟩
    | _ => none

/-- What takes place in calls that are made in order, newest moment first. -/
def callMoments (q : Inquiry) : List InquiryCall → List Moment
  | [] => []
  | c :: rest =>
    let (answer, _, q) := q.call c
    q.callMoments rest ++ [⟨.asked c answer, q.resolver.inFlight⟩]

/-- What takes place in a step, newest moment first. -/
def moments (calls : List InquiryCall) (q : Inquiry) : Step → List Moment
  | .call c =>
    let (answer, _, q) := q.call c
    started q.settle.1 q.resolver.inFlight ++ [⟨.asked c answer, q.resolver.inFlight⟩]
  | .network e =>
    let (effect, network) := q.network.receive e
    match effect.delivery with
    | some (.answer host answer) =>
      let q := { q with network, resolver := .idle }
      let last := (q.callAll calls).2.2
      started last.settle.1 last.resolver.inFlight ++ q.callMoments calls ++
        [⟨.told host answer, q.resolver.inFlight⟩, ⟨.befell e, q.resolver.inFlight⟩]
    | _ => [⟨.befell e, q.resolver.inFlight⟩]

/-- What the owner sees of something that takes place. -/
def Moment.shown? : Moment → Option InquiryEntry
  | ⟨.asked c a, _⟩ => some (.called c a)
  | ⟨.told host answer, inFlight⟩ => some (.heard host answer inFlight)
  | ⟨.began _ _ _ _, _⟩ => none
  | ⟨.befell _, _⟩ => none

/-- What the network sees of something that takes place. -/
def Mark.seen : Mark → List Signal
  | .began k host port family => [.lookup k host port family]
  | _ => []

/-- What the owner sees of moments, oldest first. -/
def entriesOf (moments : List Moment) : List InquiryEntry := moments.reverse.filterMap (·.shown?)

/-- What the network sees of moments, oldest first. -/
def seenOf (moments : List Moment) : List Signal := moments.reverse.flatMap (·.mark.seen)

/-- What the owner sees in a step, its own call among it. -/
def Result.entriesOf (r : Result) : Step → List InquiryEntry
  | .call c => match r.reply with
    | .call a => .called c a :: r.entries
    | .network _ => r.entries
  | .network _ => r.entries

/-- A resolver after steps, each with what its owner does when an answer is handed over in it. -/
def run (q : Inquiry) (steps : List (List InquiryCall × Step)) : Inquiry :=
  steps.foldl (fun q s ↦ (q.step s.1 s.2).2) q

/-- What takes place in steps, newest moment first. -/
def story (q : Inquiry) : List (List InquiryCall × Step) → List Moment
  | [] => []
  | (calls, s) :: rest => (q.step calls s).2.story rest ++ q.moments calls s

/-! ### The network of a resolver -/

/-- A resolver as the start that was granted last leaves it. -/
inductive Rests (q : Inquiry) : Errand → Prop where
  | none (idle : q.resolver.inFlight = false) (queue : q.network.queue = [])
      (pends : Pends q.network Option.none) : Rests q .none
  | wanted (busy : q.resolver.inFlight = true) {start : Nat} {host : String} {port : Int}
      (queue : q.network.queue = [.lookup host port]) (pends : Pends q.network Option.none) :
      Rests q (.wanted start host port)
  | pending (busy : q.resolver.inFlight = true) (queue : q.network.queue = [])
      {start k : Nat} {host : String} (lookup : q.network.lookups[k]? = some { host })
      (pends : Pends q.network (some k)) : Rests q (.pending start k host)
  | stuck (busy : q.resolver.inFlight = true) (queue : q.network.queue = []) {start k : Nat}
      {host : String} (pends : Pends q.network Option.none) : Rests q (.stuck start k host)

variable {q : Inquiry} {d : Errand} {n : Network} {live : Option Nat} {k : Nat} {host : String}

/-- The resolver is busy just while its errand is under way. -/
theorem Rests.inFlight_eq (hq : q.Rests d) : q.resolver.inFlight = d.isBusy := by
  cases hq <;> assumption

/-- No lookup but that of the errand is pending. -/
theorem Rests.pends (hq : q.Rests d) : Pends q.network d.lookup? := by
  cases hq <;> assumption

private theorem Rests.of_idle (hq : q.Rests d) (hidle : q.resolver.inFlight = false) :
    q.network.queue = [] ∧ Pends q.network Option.none := by
  cases hq with
  | none _ queue pends => exact ⟨queue, pends⟩
  | wanted busy => cases hidle.symm.trans busy
  | pending busy => cases hidle.symm.trans busy
  | stuck busy => cases hidle.symm.trans busy

private theorem pends_forget (n : Network) : Pends n.forget none := by
  intro k l hl hpending
  simp only [forget, List.getElem?_map, Option.map_eq_some_iff] at hl
  obtain ⟨_, -, rfl⟩ := hl
  cases hpending

/-- A lookup that starts when none is pending is the only one. -/
theorem pends_started (hpends : Pends n none) (host : String) :
    Pends { n with lookups := n.lookups ++ [{ host }], queue := [] } (some n.lookups.length) := by
  intro k l hl hpending
  rcases Nat.lt_or_ge k n.lookups.length with hk | hk
  · rw [List.getElem?_append_left hk] at hl
    cases hpends k l hl hpending
  · obtain ⟨hlt, -⟩ := List.getElem?_eq_some_iff.1 hl
    simp only [List.length_append, List.length_singleton] at hlt
    congr
    omega

/-- Once the lookup that is pending has come to its end, none is. -/
theorem pends_finish (hpends : Pends n (some k)) : Pends (n.finish k) none := by
  intro j l hl hpending
  simp only [finish, List.getElem?_modify, Option.map_eq_map, Option.map_eq_some_iff] at hl
  obtain ⟨b, hb, rfl⟩ := hl
  split at hpending
  · cases hpending
  · exact absurd (Option.some.inj (hpends j b hb hpending)) ‹_›

/-- Giving up leaves no errand, whatever there was. -/
theorem Rests.cancelled (hq : q.Rests d) : (q.call .cancel).2.2.Rests .none := by
  by_cases hbusy : q.resolver.inFlight = true
  · have hcall : (q.call .cancel).2.2 =
        { q with resolver := .idle, network := q.network.forget } := by
      simp [Inquiry.call, hbusy, take]
    rw [hcall]
    refine .none rfl ?_ (pends_forget q.network)
    cases hq <;> simp [forget, *]
  · have hidle : q.resolver.inFlight = false := Bool.eq_false_iff.2 hbusy
    obtain ⟨hqueue, hpends⟩ := hq.of_idle hidle
    have hcall : (q.call .cancel).2.2 = q := by simp [Inquiry.call, hidle]
    rw [hcall]
    exact .none hidle hqueue hpends

/-! ### Right moments -/

/-- A resolver with its story so far: every moment is right, and the resolver is as the start that
was granted last leaves it. -/
structure Tracks (family : Family) (online : Bool) (past : List Moment) (q : Inquiry) : Prop where
  isOnline : q.online = online
  hasFamily : q.network.family = family
  attempts : q.network.attempts = []
  rests : q.Rests (errand past)
  begun : ∀ k, HasBegun k past ↔ k < q.network.lookups.length
  paid : owed past = none
  fits : AllFit family online past

variable {family : Family} {online : Bool} {past : List Moment} {x : Moment}

/-- A lookup has begun at the newest moment or before. -/
theorem hasBegun_cons : HasBegun k (x :: past) ↔
    (∃ host port family, x.mark = .began k host port family) ∨ HasBegun k past := by
  simp [HasBegun]

/-- Between steps no answer is owed. -/
theorem Tracks.not_owed (hq : Tracks family online past q) (host : String) (answer : Answer) :
    owed past ≠ some (host, answer) := by
  simp [hq.paid]

/-- A call by the owner. -/
theorem Tracks.asked (hq : Tracks family online past q) {c : InquiryCall} {a : InquiryAnswer}
    {q' : Inquiry} (hx : x = ⟨.asked c a, q'.resolver.inFlight⟩) (honline : q'.online = q.online)
    (hfamily : q'.network.family = q.network.family)
    (hattempts : q'.network.attempts = q.network.attempts)
    (hlength : q'.network.lookups.length = q.network.lookups.length)
    (hrests : q'.Rests (errand (x :: past)))
    (hstart : ∀ host port, c = .start host port →
      a = .accepted (online && !(errand past).isBusy))
    (hcancel : c = .cancel → a = .cancelled) : Tracks family online (x :: past) q' := by
  subst hx
  refine ⟨honline.trans hq.isOnline, hfamily.trans hq.hasFamily, hattempts.trans hq.attempts,
    hrests, fun k ↦ ?_, rfl, ⟨hrests.inFlight_eq, fun host answer ↦ ?_, ?_, ?_, by simp⟩, hq.fits⟩
  · rw [hasBegun_cons, hq.begun, hlength]
    simp
  · exact iff_of_false (by simp) (hq.not_owed host answer)
  · rintro host port _ ⟨⟩
    exact hstart host port rfl
  · rintro _ ⟨⟩
    exact hcancel rfl

private theorem Tracks.call (hq : Tracks family online past q) (c : InquiryCall) :
    Tracks family online
      (⟨.asked c (q.call c).1, (q.call c).2.2.resolver.inFlight⟩ :: past) (q.call c).2.2 := by
  have hbusy := hq.rests.inFlight_eq
  cases c with
  | start host port =>
    by_cases hfree : (!q.resolver.inFlight && q.online) = true
    · have hcall : q.call (.start host port) = (.accepted true, [], { q with
          resolver := ⟨true⟩
          network := { q.network with queue := q.network.queue ++ [.lookup host port] } }) := by
        simp [Inquiry.call, Resolver.start?, hfree, take]
      obtain ⟨hidle, honline⟩ : q.resolver.inFlight = false ∧ q.online = true := by
        simpa using hfree
      obtain ⟨hqueue, hpends⟩ := hq.rests.of_idle hidle
      rw [hcall]
      refine hq.asked rfl rfl rfl rfl rfl (.wanted rfl ?_ hpends) ?_ (by simp)
      · rw [hqueue, List.nil_append]
      · rintro _ _ -
        simp [← hbusy, hidle, ← hq.isOnline, honline]
    · have hcall : q.call (.start host port) = (.accepted false, [], q) := by
        simp [Inquiry.call, Resolver.start?, hfree]
      rw [hcall]
      refine hq.asked rfl rfl rfl rfl rfl hq.rests ?_ (by simp)
      rintro _ _ -
      rw [← hbusy, ← hq.isOnline, Bool.and_comm, Bool.eq_false_iff.2 hfree]
  | cancel =>
    have hanswer : (q.call .cancel).1 = .cancelled := by
      simp only [Inquiry.call]
      split <;> rfl
    have hframe : (q.call .cancel).2.2.online = q.online ∧
        (q.call .cancel).2.2.network.family = q.network.family ∧
        (q.call .cancel).2.2.network.attempts = q.network.attempts ∧
        (q.call .cancel).2.2.network.lookups.length = q.network.lookups.length := by
      simp only [Inquiry.call]
      split <;> simp [take, forget]
    obtain ⟨honline, hfamily, hattempts, hlength⟩ := hframe
    exact hq.asked rfl honline hfamily hattempts hlength hq.rests.cancelled (by simp)
      fun _ ↦ hanswer

private theorem Tracks.callAll (hq : Tracks family online past q) (calls : List InquiryCall) :
    Tracks family online (q.callMoments calls ++ past) (q.callAll calls).2.2 := by
  induction calls generalizing q past with
  | nil => exact hq
  | cons c rest ih => simpa [callMoments, Inquiry.callAll] using ih (hq.call c)

/-- Where nothing is about to start, nothing does. -/
theorem settle_eq_self (hqueue : q.network.queue = []) : q.settle = ([], q) := by
  simp only [Inquiry.settle, Network.settle, hqueue, Network.startAll]
  rw [← hqueue]

/-- When a call is over, the lookup that it asked for starts. -/
theorem Tracks.settle (hq : Tracks family online past q) :
    Tracks family online (started q.settle.1 q.resolver.inFlight ++ past) q.settle.2 := by
  have hidle (hqueue : q.network.queue = []) :
      Tracks family online (started q.settle.1 q.resolver.inFlight ++ past) q.settle.2 := by
    rw [settle_eq_self hqueue]
    exact hq
  have hrests := hq.rests
  generalize hd : errand past = d at hrests
  cases hrests with
  | none _ queue => exact hidle queue
  | pending _ queue => exact hidle queue
  | stuck _ queue => exact hidle queue
  | @wanted busy start host port queue pends =>
    let number := q.network.lookups.length
    let last : Inquiry := { q with network := { q.network with
      lookups := q.network.lookups ++ [{ host }], queue := [] } }
    have hsettle : q.settle = ([.lookup number host port family], last) := by
      simp [Inquiry.settle, Network.settle, queue, Network.startAll, Network.start, number, last,
        hq.hasFamily]
    have hstarted : started [.lookup number host port family] q.resolver.inFlight =
        [⟨.began number host port family, q.resolver.inFlight⟩] := rfl
    have herrand : errand (⟨.began number host port family, q.resolver.inFlight⟩ :: past) =
        .pending start number host := by
      rw [errand, hd]
      rfl
    have hrests : last.Rests (.pending start number host) := by
      refine .pending ?_ rfl ?_ (pends_started pends host)
      · exact busy
      · simp [last, number]
    rw [hsettle, hstarted]
    refine ⟨hq.isOnline, hq.hasFamily, hq.attempts, herrand ▸ hrests, fun k ↦ ?_, rfl,
      ⟨?_, fun host answer ↦ ?_, by simp, by simp, ?_⟩, hq.fits⟩
    · have hlength : last.network.lookups.length = number + 1 := by simp [last, number]
      rw [List.singleton_append, hasBegun_cons, hq.begun, hlength]
      simp only [Mark.began.injEq, number]
      constructor
      · rintro (⟨_, _, _, rfl, -⟩ | hk) <;> omega
      · intro hk
        rcases Nat.lt_succ_iff_lt_or_eq.1 hk with hk | rfl
        · exact .inr hk
        · exact .inl ⟨host, port, family, rfl, rfl, rfl, rfl⟩
    · exact busy.trans (congrArg Errand.isBusy herrand).symm
    · exact iff_of_false (by simp) (hq.not_owed host answer)
    · rintro k _ _ _ ⟨⟩
      exact ⟨rfl, ⟨start, hd⟩, fun hbegun ↦ Nat.lt_irrefl _ ((hq.begun number).1 hbegun)⟩

/-! ### Events of the network -/

variable {e : Event} {answer : Answer}

/-- What happens to anything but the lookup of the errand changes nothing at all. -/
theorem Rests.receive_of_apart (hq : q.Rests d) (hattempts : q.network.attempts = [])
    (hapart : ∀ k, e.lookup? = some k → d.lookup? ≠ some k) :
    ∃ outcome, q.network.receive e = (⟨outcome, [], Option.none⟩, q.network) := by
  have hover (k : Nat) (hk : e.lookup? = some k) (l : Lookup)
      (hl : q.network.lookups[k]? = some l) : l.pending = false :=
    Bool.eq_false_iff.2 fun hpending ↦ hapart k hk (hq.pends k l hl hpending)
  cases e with
  | resolved k addresses => exact receive_of_settled rfl (hover k rfl)
  | lookupFailed k foreign => exact receive_of_settled rfl (hover k rfl)
  | _ => exact ⟨.absent, by simp [receive, hattempts]⟩

/-- What befalls another lookup leaves the errand. -/
theorem errand_befell_of_apart (hapart : ∀ k, e.lookup? = some k → (errand past).lookup? ≠ some k)
    (inFlight : Bool) : errand (⟨.befell e, inFlight⟩ :: past) = errand past := by
  rw [errand]
  cases hd : errand past with
  | pending start k host =>
    rw [hd] at hapart
    simp only [Errand.after]
    exact if_neg fun hk ↦ hapart k hk rfl
  | _ => rfl

/-- The end of its lookup ends an errand, or leaves it stuck where there is no answer. -/
theorem errand_befell_of_pending {start : Nat} (hd : errand past = .pending start k host)
    (hk : e.lookup? = some k) (inFlight : Bool) : errand (⟨.befell e, inFlight⟩ :: past) =
      if (e.answer? host).isSome then .none else .stuck start k host := by
  rw [errand, hd]
  exact if_pos hk

private theorem Tracks.begun_iff (hq : Tracks family online past q) {q' : Inquiry}
    (hlength : q'.network.lookups.length = q.network.lookups.length) (inFlight : Bool) (k : Nat) :
    HasBegun k (⟨.befell e, inFlight⟩ :: past) ↔ k < q'.network.lookups.length := by
  rw [hasBegun_cons, hq.begun, hlength]
  simp

/-- What happens on the network is right if the resolver is then as its errand leaves it. -/
theorem Tracks.fits_befell (hq : Tracks family online past q) {inFlight : Bool}
    (hbusy : inFlight = (errand (⟨.befell e, inFlight⟩ :: past)).isBusy) :
    AllFit family online (⟨.befell e, inFlight⟩ :: past) :=
  ⟨⟨hbusy, fun host answer ↦ iff_of_false (by simp) (hq.not_owed host answer), by simp, by simp,
    by simp⟩, hq.fits⟩

/-- Something happens that is not answered. -/
theorem Tracks.befell (hq : Tracks family online past q) {q' : Inquiry} {inFlight : Bool}
    (hinFlight : q'.resolver.inFlight = inFlight)
    (hrests : q'.Rests (errand (⟨.befell e, inFlight⟩ :: past))) (honline : q'.online = q.online)
    (hfamily : q'.network.family = q.network.family)
    (hattempts : q'.network.attempts = q.network.attempts)
    (hlength : q'.network.lookups.length = q.network.lookups.length)
    (hpaid : (errand past).answer? e = none) :
    Tracks family online (⟨.befell e, inFlight⟩ :: past) q' :=
  ⟨honline.trans hq.isOnline, hfamily.trans hq.hasFamily, hattempts.trans hq.attempts, hrests,
    hq.begun_iff hlength inFlight, hpaid, hq.fits_befell (hinFlight.symm.trans hrests.inFlight_eq)⟩

/-- The lookup of the errand is answered. -/
theorem Tracks.told (hq : Tracks family online past q) {start : Nat}
    (hd : errand past = .pending start k host) (hk : e.lookup? = some k)
    (hanswer : e.answer? host = some answer) :
    Tracks family online (⟨.told host answer, false⟩ :: ⟨.befell e, false⟩ :: past)
      { q with network := q.network.finish k, resolver := .idle } := by
  have hpends : Pends q.network (some k) := by simpa [hd, Errand.lookup?] using hq.rests.pends
  have hqueue : q.network.queue = [] := by
    have hrests := hq.rests
    rw [hd] at hrests
    cases hrests
    assumption
  have herrand : errand (⟨.befell e, false⟩ :: past) = .none := by
    rw [errand_befell_of_pending hd hk, hanswer]
    rfl
  have herrand' : errand (⟨.told host answer, false⟩ :: ⟨.befell e, false⟩ :: past) = .none :=
    herrand
  have howed : owed (⟨.befell e, false⟩ :: past) = some (host, answer) := by
    simp [owed, hd, Errand.answer?, hk, hanswer]
  have hlength : (q.network.finish k).lookups.length = q.network.lookups.length := by simp [finish]
  refine ⟨hq.isOnline, hq.hasFamily, hq.attempts, ?_, fun j ↦ ?_, rfl,
    ⟨?_, fun host' answer' ↦ ?_, by simp, by simp, by simp⟩, hq.fits_befell ?_⟩
  · rw [herrand']
    exact .none rfl hqueue (pends_finish hpends)
  · rw [hasBegun_cons, hasBegun_cons, hq.begun, hlength]
    simp
  · rw [herrand']
    rfl
  · rw [howed]
    simp
  · rw [herrand]
    rfl

/-- The two ways that an event can stand to the errand. -/
theorem apart_or_pending (d : Errand) (e : Event) :
    (∀ k, e.lookup? = some k → d.lookup? ≠ some k) ∨
      ∃ start k host, d = .pending start k host ∧ e.lookup? = some k := by
  cases d with
  | pending start k host =>
    by_cases hk : e.lookup? = some k
    · exact .inr ⟨start, k, host, rfl, hk⟩
    · refine .inl fun j hj hjk ↦ hk ?_
      cases hjk
      exact hj
  | _ => exact .inl fun _ _ h ↦ by cases h

/-- Only the lookup that is waited for brings an answer. -/
theorem Errand.answer?_of_apart (hapart : ∀ k, e.lookup? = some k → d.lookup? ≠ some k) :
    d.answer? e = Option.none := by
  cases d with
  | pending start k host => exact if_neg fun hk ↦ hapart k hk rfl
  | _ => rfl

/-- A pending errand has a pending lookup of its host. -/
theorem Rests.lookup {start : Nat} (hq : q.Rests (.pending start k host)) :
    q.network.lookups[k]? = some { host } := by
  cases hq
  assumption

/-- What does not concern the errand leaves the resolver as it is, and nobody sees it. -/
theorem Tracks.step_of_apart (hq : Tracks family online past q) (calls : List InquiryCall)
    (hapart : ∀ k, e.lookup? = some k → (errand past).lookup? ≠ some k) :
    (∃ outcome, q.step calls (.network e) = (⟨.network outcome, [], []⟩, q)) ∧
      q.moments calls (.network e) = [⟨.befell e, q.resolver.inFlight⟩] := by
  obtain ⟨outcome, hreceive⟩ := hq.rests.receive_of_apart hq.attempts hapart
  simp only [moments, Inquiry.step, hreceive]
  exact ⟨⟨outcome, rfl⟩, trivial⟩

private theorem Tracks.step (hq : Tracks family online past q) (calls : List InquiryCall)
    (s : Step) :
    Tracks family online (q.moments calls s ++ past) (q.step calls s).2 := by
  cases s with
  | call c => simpa [moments, Inquiry.step] using (hq.call c).settle
  | network e =>
    rcases apart_or_pending (errand past) e with hapart | ⟨start, k, host, hd, hk⟩
    · obtain ⟨⟨outcome, hstep⟩, hmoments⟩ := hq.step_of_apart calls hapart
      have herrand := errand_befell_of_apart hapart q.resolver.inFlight
      rw [hstep, hmoments]
      exact hq.befell rfl (herrand ▸ hq.rests) rfl rfl rfl rfl (Errand.answer?_of_apart hapart)
    · have hrests := hq.rests
      rw [hd] at hrests
      have hreceive := receive_of_pending hrests.lookup hk
      cases hanswer : e.answer? host with
      | some answer =>
        have hlast := ((hq.told hd hk hanswer).callAll calls).settle
        simp only [moments, Inquiry.step, hear, hreceive, hanswer, Option.map_some]
        rw [List.append_assoc, List.append_assoc]
        exact hlast
      | none =>
        have herrand : errand (⟨.befell e, q.resolver.inFlight⟩ :: past) =
            .stuck start k host := by
          rw [errand_befell_of_pending hd hk, hanswer]
          rfl
        simp only [moments, Inquiry.step, hreceive, hanswer, Option.map_none]
        refine hq.befell rfl (herrand ▸ ?_) rfl rfl rfl (by simp [finish]) ?_
        · cases hrests with
          | pending busy queue lookup pends =>
            refine .stuck ?_ ?_ (pends_finish pends)
            · exact busy
            · exact queue
        · simp [hd, Errand.answer?, hk, hanswer]

/-! ### What moments show -/

section Shows

variable (later : List Moment)

@[simp]
private theorem entriesOf_append :
    entriesOf (later ++ past) = entriesOf past ++ entriesOf later := by
  simp [entriesOf]

@[simp]
private theorem seenOf_append : seenOf (later ++ past) = seenOf past ++ seenOf later := by
  simp [seenOf]

private theorem entriesOf_started (seen : List Signal) (inFlight : Bool) :
    entriesOf (started seen inFlight) = [] := by
  simp only [entriesOf, started, ← List.filterMap_reverse, List.reverse_reverse,
    List.filterMap_filterMap, List.filterMap_eq_nil_iff]
  intro s _
  cases s <;> rfl

private theorem Rests.seenOf_started (hq : q.Rests d) (inFlight : Bool) :
    seenOf (started q.settle.1 inFlight) = q.settle.1 := by
  cases hq with
  | wanted _ queue =>
    simp [Inquiry.settle, Network.settle, queue, startAll, Network.start, started, seenOf,
      Mark.seen]
  | none _ queue => simp [settle_eq_self queue, started, seenOf]
  | pending _ queue => simp [settle_eq_self queue, started, seenOf]
  | stuck _ queue => simp [settle_eq_self queue, started, seenOf]

private theorem entriesOf_callMoments (q : Inquiry) (calls : List InquiryCall) :
    entriesOf (q.callMoments calls) = (q.callAll calls).1 := by
  induction calls generalizing q with
  | nil => rfl
  | cons c rest ih =>
    simp only [callMoments, entriesOf_append, ih, Inquiry.callAll]
    rfl

/-- Nothing is seen of a call before it is over. -/
theorem seen_call (q : Inquiry) (c : InquiryCall) : (q.call c).2.1 = [] := by
  cases c with
  | start host port =>
    simp only [Inquiry.call]
    split <;> rfl
  | cancel =>
    simp only [Inquiry.call]
    split <;> rfl

private theorem seen_callAll (q : Inquiry) (calls : List InquiryCall) :
    (q.callAll calls).2.1 = [] := by
  induction calls generalizing q with
  | nil => rfl
  | cons c rest ih => simp [Inquiry.callAll, seen_call, ih]

private theorem seenOf_callMoments (q : Inquiry) (calls : List InquiryCall) :
    seenOf (q.callMoments calls) = [] := by
  induction calls generalizing q with
  | nil => rfl
  | cons c rest ih =>
    simp only [callMoments, seenOf_append, ih]
    rfl

end Shows

/-- The moments of a step are those that its result shows. -/
theorem Tracks.shows (hq : Tracks family online past q) (calls : List InquiryCall) (s : Step) :
    entriesOf (q.moments calls s) = (q.step calls s).1.entriesOf s ∧
      seenOf (q.moments calls s) = (q.step calls s).1.seen := by
  cases s with
  | call c =>
    simp only [moments, Inquiry.step, entriesOf_append, seenOf_append, entriesOf_started,
      (hq.call c).rests.seenOf_started, seen_call]
    simp [entriesOf, Moment.shown?, seenOf, Mark.seen, Result.entriesOf]
  | network e =>
    rcases apart_or_pending (errand past) e with hapart | ⟨start, k, host, hd, hk⟩
    · obtain ⟨⟨outcome, hstep⟩, hmoments⟩ := hq.step_of_apart calls hapart
      rw [hstep, hmoments]
      exact ⟨rfl, rfl⟩
    · have hrests := hq.rests
      rw [hd] at hrests
      have hreceive := receive_of_pending hrests.lookup hk
      cases hanswer : e.answer? host with
      | some answer =>
        have hlast := (hq.told hd hk hanswer).callAll calls
        simp only [moments, Inquiry.step, hear, hreceive, hanswer, Option.map_some,
          entriesOf_append, seenOf_append, entriesOf_started, hlast.rests.seenOf_started,
          entriesOf_callMoments, seenOf_callMoments, seen_callAll]
        simp [entriesOf, Moment.shown?, seenOf, Mark.seen, Result.entriesOf]
      | none =>
        simp only [moments, Inquiry.step, hreceive, hanswer, Option.map_none]
        exact ⟨rfl, rfl⟩

/-! ### Runs -/

/-- Every moment of a run is right. -/
theorem Tracks.run (hq : Tracks family online past q) (steps : List (List InquiryCall × Step)) :
    Tracks family online (q.story steps ++ past) (q.run steps) := by
  induction steps generalizing q past with
  | nil => exact hq
  | cons s rest ih =>
    have hlast := ih (hq.step s.1 s.2)
    rwa [← List.append_assoc] at hlast

/-- Nothing has happened to a resolver that is fresh. -/
theorem tracks_fresh (family : Family) (online : Bool) :
    Tracks family online [] { online, network := { family } } :=
  ⟨rfl, rfl, rfl, .none rfl rfl (by simp [Pends]), by simp [HasBegun], rfl, trivial⟩

end Inquiry

end Rendezvous.Network
