import Mathlib.Data.List.Nodup
import Rendezvous.Proofs.Network.Basic
import Rendezvous.Proofs.Session.Ledger

/-!
# A network in step with the session on it

What a session counts on is true of the network. A socket has one attempt at most that is not dead,
and its phase is the stage of that attempt; a lookup is pending or about to start only while the
session has one in flight. The requests of a session keep it so, and so does everything that happens
on the network once the session has been told of it.
-/

namespace Rendezvous.Network

instance (a : Attempt) : Decidable a.IsDead :=
  inferInstanceAs (Decidable (a.abandoned = true ∨ a.stage = .over))

/-- The attempt that a request starts. -/
def Request.attempt? : Request → Option Attempt
  | .dial socket _ => some { socket }
  | .lookup _ _ => none

/-- The lookup that a request starts. -/
def Request.lookup? : Request → Option Lookup
  | .dial _ _ => none
  | .lookup host _ => some { host }

/-- The attempts that may still bring their sockets something, with those about to start. -/
def live (n : Network) : List Attempt :=
  n.attempts.filter (¬ ·.IsDead) ++ n.queue.filterMap Request.attempt?

/-- The lookups that are pending, with those about to start. -/
def wanted (n : Network) : List Lookup :=
  n.lookups.filter Lookup.pending ++ n.queue.filterMap Request.lookup?

/-- Whether what a session counts on is true of a network. -/
structure Mirrors (n : Network) (l : Ledger) : Prop where
  phase : ∀ a ∈ n.live, l.phaseOf a.socket = a.stage.phase
  apart : (n.live.map Attempt.socket).Nodup
  looking : n.wanted.length ≤ l.looking.toNat

variable {n : Network} {l l' : Ledger} {a : Attempt} {k : Nat} {e : Event}

private theorem Mirrors.congr {n' : Network} (h : n.Mirrors l) (hlive : n'.live = n.live)
    (hwanted : n'.wanted = n.wanted) : n'.Mirrors l :=
  ⟨hlive ▸ h.phase, hlive ▸ h.apart, hwanted ▸ h.looking⟩

/-- A fresh network has nothing that a session could count on. -/
theorem mirrors_fresh (family : Family) (looking : Bool) (due : Option Nat)
    (phaseOf : Nat → Channel.Phase) : Mirrors { family } ⟨phaseOf, looking, due⟩ :=
  ⟨by simp [live], by simp [live], by simp [wanted]⟩

/-! ### What is about to start -/

private theorem attempts_startAll (n : Network) (requests : List Request) :
    (n.startAll requests).2.attempts = n.attempts ++ requests.filterMap Request.attempt? := by
  induction requests generalizing n with
  | nil => exact (List.append_nil _).symm
  | cons r rest ih =>
    refine (ih _).trans ?_
    cases r <;> simp [Request.attempt?, List.filterMap_cons]

private theorem lookups_startAll (n : Network) (requests : List Request) :
    (n.startAll requests).2.lookups = n.lookups ++ requests.filterMap Request.lookup? := by
  induction requests generalizing n with
  | nil => exact (List.append_nil _).symm
  | cons r rest ih =>
    refine (ih _).trans ?_
    cases r <;> simp [Request.lookup?, List.filterMap_cons]

/-- What starts is alive, as it was when it was about to start. -/
theorem Mirrors.settle (h : n.Mirrors l) : n.settle.2.Mirrors l := by
  have hattempt (r : Request) : ∀ a ∈ r.attempt?, ¬ a.IsDead := by
    cases r <;> simp [Request.attempt?, Attempt.IsDead]
  have hlookup (r : Request) : ∀ l ∈ r.lookup?, l.pending = true := by
    cases r <;> simp [Request.lookup?]
  apply h.congr
  · rw [live, queue_settle, Network.settle, attempts_startAll, List.filter_append,
      List.filterMap_nil, List.append_nil, live]
    congr 1
    refine List.filter_eq_self.2 fun a ha ↦ decide_eq_true ?_
    obtain ⟨r, -, hr⟩ := List.mem_filterMap.1 ha
    exact hattempt r a hr
  · rw [wanted, queue_settle, Network.settle, lookups_startAll, List.filter_append,
      List.filterMap_nil, List.append_nil, wanted]
    congr 1
    refine List.filter_eq_self.2 fun l hl ↦ ?_
    obtain ⟨r, -, hr⟩ := List.mem_filterMap.1 hl
    exact hlookup r l hr

/-! ### Requests of the session -/

/-- Giving up a socket leaves the attempts of the others. -/
theorem live_close (n : Network) (k : Nat) :
    ((n.withdraw k).abandon k).live = n.live.filter (·.socket ≠ k) := by
  have hattempts (as : List Attempt) :
      (as.map fun a ↦ if a.socket = k then { a with abandoned := true } else a).filter
        (¬ ·.IsDead) = (as.filter (¬ ·.IsDead)).filter (·.socket ≠ k) := by
    induction as with
    | nil => rfl
    | cons a rest ih =>
      obtain ⟨socket, stage, abandoned⟩ := a
      by_cases hk : socket = k <;> cases stage <;> cases abandoned <;>
        simp_all [Attempt.IsDead]
  have hqueue (rs : List Request) : (rs.filter fun
        | .dial s _ => s ≠ k
        | .lookup _ _ => true).filterMap Request.attempt? =
      (rs.filterMap Request.attempt?).filter (·.socket ≠ k) := by
    induction rs with
    | nil => rfl
    | cons r rest ih =>
      cases r with
      | dial s address => by_cases hk : s = k <;> simp_all [Request.attempt?]
      | lookup host port => simp_all [Request.attempt?, List.filterMap_cons]
  rw [live, live, List.filter_append, ← hattempts, ← hqueue]
  rfl

private theorem wanted_close (n : Network) (k : Nat) :
    ((n.withdraw k).abandon k).wanted = n.wanted := by
  have hqueue (rs : List Request) : (rs.filter fun
        | .dial s _ => s ≠ k
        | .lookup _ _ => true).filterMap Request.lookup? = rs.filterMap Request.lookup? := by
    induction rs with
    | nil => rfl
    | cons r rest ih =>
      cases r with
      | dial s address => by_cases hk : s = k <;> simp_all [Request.lookup?, List.filterMap_cons]
      | lookup host port => simp_all [Request.lookup?]
  rw [wanted, wanted, ← hqueue n.queue]
  rfl

private theorem live_forget (n : Network) : n.forget.live = n.live := by
  have hqueue (rs : List Request) : (rs.filter fun
        | .dial _ _ => true
        | .lookup _ _ => false).filterMap Request.attempt? =
      rs.filterMap Request.attempt? := by
    induction rs with
    | nil => rfl
    | cons r rest ih => cases r <;> simp_all [Request.attempt?, List.filterMap_cons]
  rw [live, live, ← hqueue n.queue]
  rfl

private theorem wanted_forget (n : Network) : n.forget.wanted = [] := by
  have hqueue (rs : List Request) : (rs.filter fun
        | .dial _ _ => true
        | .lookup _ _ => false).filterMap Request.lookup? = [] := by
    induction rs with
    | nil => rfl
    | cons r rest ih => cases r <;> simp_all [Request.lookup?, List.filterMap_cons]
  refine List.append_eq_nil_iff.2 ⟨List.filter_eq_nil_iff.2 fun l hl ↦ ?_, hqueue n.queue⟩
  obtain ⟨_, -, rfl⟩ := List.mem_map.1 hl
  exact Bool.false_ne_true

/-- A socket that is closed has no attempt that is not dead. -/
theorem Mirrors.ne_of_closed (h : n.Mirrors l) (hclosed : l.phaseOf k = .closed) :
    ∀ a ∈ n.live, a.socket ≠ k := by
  rintro a ha rfl
  have hover : a.stage = .over := by
    have hphase := (h.phase a ha).symm.trans hclosed
    cases hstage : a.stage <;> rw [hstage] at hphase <;> first | rfl | cases hphase
  rcases List.mem_append.1 ha with ha | ha
  · exact of_decide_eq_true (List.mem_filter.1 ha).2 (.inr hover)
  · obtain ⟨r, -, hr⟩ := List.mem_filterMap.1 ha
    cases r <;> cases hr
    cases hover

/-- Where the session has no lookup in flight, none is wanted. -/
theorem Mirrors.wanted_of_idle (h : n.Mirrors l) (hidle : l.looking = false) : n.wanted = [] := by
  have hnone := h.looking
  rw [hidle] at hnone
  exact List.length_eq_zero_iff.1 (Nat.le_zero.1 hnone)

/-- A request of the session keeps the network in step with it. -/
theorem Mirrors.take {asked : Action} (h : n.Mirrors l) (hturn : l.Turn asked l') :
    (n.take asked).2.Mirrors l' := by
  cases hturn with
  | @connect k closed address =>
    have hlive : (n.take (.connect k address)).2.live = n.live ++ [{ socket := k }] := by
      simp [Network.take, live, Request.attempt?]
    have hne := h.ne_of_closed closed
    refine ⟨fun a ha ↦ ?_, ?_, ?_⟩
    · rw [hlive] at ha
      rcases List.mem_append.1 ha with ha | ha
      · exact (Function.update_of_ne (hne a ha) _ _).trans (h.phase a ha)
      · cases List.mem_singleton.1 ha
        exact Function.update_self ..
    · rw [hlive, List.map_append, List.nodup_append]
      refine ⟨h.apart, List.nodup_singleton k, ?_⟩
      simpa using hne
    · have hwanted : (n.take (.connect k address)).2.wanted = n.wanted := by
        simp [Network.take, wanted, Request.lookup?, List.filterMap_cons]
      exact hwanted ▸ h.looking
  | send => exact h
  | close k =>
    have hlive : (n.take (.close k)).2.live = n.live.filter (·.socket ≠ k) := live_close n k
    refine ⟨fun a ha ↦ ?_, ?_, ?_⟩
    · rw [hlive, List.mem_filter] at ha
      exact (Function.update_of_ne (of_decide_eq_true ha.2) _ _).trans (h.phase a ha.1)
    · rw [hlive]
      exact h.apart.sublist (List.filter_sublist.map _)
    · have hwanted : (n.take (.close k)).2.wanted = n.wanted := wanted_close n k
      exact hwanted ▸ h.looking
  | lookup idle host port =>
    have hlive : (n.take (.lookup host port)).2.live = n.live := by
      simp [Network.take, live, Request.attempt?]
    have hwanted := h.wanted_of_idle idle
    refine ⟨hlive ▸ h.phase, hlive ▸ h.apart, ?_⟩
    rw [wanted, List.append_eq_nil_iff] at hwanted
    simp [Network.take, wanted, hwanted, Request.lookup?]
  | cancelLookup =>
    have hlive : (n.take .cancelLookup).2.live = n.live := live_forget n
    refine ⟨hlive ▸ h.phase, hlive ▸ h.apart, ?_⟩
    have hwanted : (n.take .cancelLookup).2.wanted = [] := wanted_forget n
    exact hwanted ▸ Nat.zero_le _
  | schedule => exact ⟨h.phase, h.apart, h.looking⟩
  | cancelTimer => exact ⟨h.phase, h.apart, h.looking⟩

/-- The induction is on the requests, each with its turn. -/
theorem Mirrors.takeAll {asked : List Action} (h : n.Mirrors l) (hturns : l.Turns asked l') :
    (n.takeAll asked).2.Mirrors l' := by
  induction hturns generalizing n with
  | nil => exact h
  | cons head _ ih => exact ih (h.take head)

/-! ### Events -/

/-- What the session counts on once it has been told of something. -/
def Delivery.after (l : Ledger) : Delivery → Ledger
  | .socket k event => l.setPhase k ((l.phaseOf k).after event)
  | .answer _ _ => { l with looking := false }

/-- Fewer attempts are alive. -/
theorem Mirrors.sublist {n' : Network} (h : n.Mirrors l) (hlive : n'.live.Sublist n.live)
    (hwanted : n'.wanted = n.wanted) : n'.Mirrors l :=
  ⟨fun a ha ↦ h.phase a (hlive.subset ha), h.apart.sublist (hlive.map _), hwanted ▸ h.looking⟩

/-- One attempt comes to another stage. -/
theorem live_setStage (ha : n.attempts[k]? = some a) (stage : Stage) : ∃ before after,
    n.live = before ++ [a].filter (¬ ·.IsDead) ++ after ∧
      (n.setStage k stage).live = before ++ [{ a with stage }].filter (¬ ·.IsDead) ++ after := by
  obtain ⟨hk, -⟩ := List.getElem?_eq_some_iff.1 ha
  obtain ⟨before, b, after, hsplit, hlength, hmodify⟩ :=
    List.exists_of_modify ({ · with stage }) hk
  have hb : b = a := by simpa [hsplit, ← hlength] using ha
  subst hb
  refine ⟨before.filter (¬ ·.IsDead),
    after.filter (¬ ·.IsDead) ++ n.queue.filterMap Request.attempt?, ?_, ?_⟩
  · rw [live, hsplit, List.append_cons, List.filter_append, List.filter_append,
      List.append_assoc]
  · rw [live, setStage, hmodify, List.append_cons, List.filter_append, List.filter_append,
      List.append_assoc]

/-- An attempt that is dead in its new stage is alive no more. -/
theorem Mirrors.setStage (h : n.Mirrors l) (ha : n.attempts[k]? = some a) {stage : Stage}
    (hdead : a.abandoned = true ∨ stage = .over) : (n.setStage k stage).Mirrors l := by
  obtain ⟨before, after, hlive, hlive'⟩ := live_setStage ha stage
  refine h.sublist ?_ rfl
  have hdead : Attempt.IsDead { a with stage } := hdead
  have hgone : [{ a with stage }].filter (¬ ·.IsDead) = [] :=
    List.filter_eq_nil_iff.2 (by simpa using hdead)
  rw [hlive, hlive', hgone, List.append_nil]
  exact (List.sublist_append_left _ _).append_right _

/-- An attempt that is alive and its socket come to their next stage together. -/
theorem Mirrors.told (h : n.Mirrors l) (ha : n.attempts[k]? = some a) (halive : ¬ a.IsDead)
    (event : Channel.Event) : (n.setStage k (a.stage.after event)).Mirrors
      (l.setPhase a.socket ((l.phaseOf a.socket).after event)) := by
  obtain ⟨before, after, hlive, hlive'⟩ := live_setStage ha (a.stage.after event)
  rw [List.filter_eq_self.2 (by simpa using halive)] at hlive
  have hnext : (n.setStage k (a.stage.after event)).live.Sublist
      (before ++ [{ a with stage := a.stage.after event }] ++ after) :=
    hlive' ▸ (List.filter_sublist.append_left before).append_right after
  have hmiddle : ((a :: (before ++ after)).map Attempt.socket).Nodup := by
    refine (List.perm_middle.map _).nodup_iff.1 ?_
    simpa [hlive] using h.apart
  have hother (b : Attempt) (hb : b ∈ before ++ after) : b.socket ≠ a.socket := fun hsame ↦
    (List.nodup_cons.1 hmiddle).1 (hsame ▸ List.mem_map_of_mem hb)
  have hphase : l.phaseOf a.socket = a.stage.phase := h.phase a (by simp [hlive])
  have hmem (b : Attempt) (hb : b ∈ (n.setStage k (a.stage.after event)).live) :
      b = { a with stage := a.stage.after event } ∨ b ∈ before ++ after := by
    have hb := hnext.subset hb
    simp only [List.mem_append, List.mem_singleton] at hb ⊢
    tauto
  refine ⟨fun b hb ↦ ?_, ?_, h.looking⟩
  · rcases hmem b hb with rfl | hb
    · rw [Stage.phase_after, ← hphase]
      exact Function.update_self ..
    · refine (Function.update_of_ne (hother b hb) _ _).trans (h.phase b ?_)
      rw [hlive]
      exact (List.sublist_append_left _ _ |>.append_right _).subset hb
  · refine List.Nodup.sublist (hnext.map _) ?_
    simpa [hlive] using h.apart

/-- The end of the lookup that is pending leaves none. -/
theorem Mirrors.wanted_finish (h : n.Mirrors l) {host : String}
    (hk : n.lookups[k]? = some { host }) : (n.finish k).wanted = [] := by
  obtain ⟨hlt, -⟩ := List.getElem?_eq_some_iff.1 hk
  obtain ⟨before, b, after, hsplit, hlength, hmodify⟩ :=
    List.exists_of_modify ({ · with pending := false }) hlt
  have hb : b = { host } := by simpa [hsplit, ← hlength] using hk
  subst hb
  have hone : n.wanted.length ≤ 1 := Nat.le_trans h.looking (Bool.toNat_le l.looking)
  simp only [wanted, hsplit, List.filter_append, List.filter_cons, List.length_append,
    if_true, List.length_cons] at hone
  rw [wanted, finish, hmodify]
  apply List.eq_nil_of_length_eq_zero
  simp only [List.filter_append, List.filter_cons, List.length_append,
    if_neg Bool.false_ne_true]
  omega

/-- Once the session has been told of what happened, the network is in step with it again. -/
theorem Mirrors.receive (h : n.Mirrors l) (e : Event) : (n.receive e).2.Mirrors
    ((n.receive e).1.delivery.elim l (Delivery.after l)) := by
  cases he : e.attempt? with
  | some k =>
    cases ha : n.attempts[k]? with
    | none =>
      rw [receive_of_absent ha he]
      exact h
    | some a =>
      rw [receive_of_present ha he]
      obtain ⟨event, heffect, halive, -, hnext⟩ | ⟨-, hnone, hsame⟩ | ⟨-, habandoned, heffect⟩ |
        ⟨-, -, heffect⟩ := attemptEvent_cases ha he
      · rw [heffect, hnext]
        exact h.told ha halive event
      · rw [hnone, hsame]
        exact h
      · rw [heffect]
        exact h.setStage ha (.inl habandoned)
      · rw [heffect]
        exact h.setStage ha (.inr rfl)
  | none =>
    obtain ⟨k, hk⟩ : ∃ k, e.lookup? = some k := by cases e <;> cases he <;> exact ⟨_, rfl⟩
    by_cases hpending : ∃ host, n.lookups[k]? = some { host }
    · obtain ⟨host, hl⟩ := hpending
      have hwanted := h.wanted_finish hl
      rw [receive_of_pending hl hk]
      cases e.answer? host with
      | none => exact ⟨h.phase, h.apart, hwanted ▸ Nat.zero_le _⟩
      | some answer => exact ⟨h.phase, h.apart, hwanted ▸ Nat.zero_le _⟩
    · have hsettled (l : Lookup) (hl : n.lookups[k]? = some l) : l.pending = false :=
        Bool.eq_false_iff.2 fun hwaiting ↦ hpending ⟨l.host, by simp [hl, ← hwaiting]⟩
      obtain ⟨outcome, hreceive⟩ := receive_of_settled hk hsettled
      rw [hreceive]
      exact h

/-- The session is told only of what a working network reports. -/
theorem Mirrors.permits (h : n.Mirrors l) {e : Event} {event : Channel.Event}
    (hd : (n.receive e).1.delivery = some (.socket k event)) : (l.phaseOf k).Permits event := by
  rcases n.receive_cases e with ⟨hdelivery, -⟩ | ⟨j, a, ha, he, hreceive⟩
  · exact absurd hd (hdelivery k event)
  · rw [hreceive] at hd
    obtain ⟨event', heffect, halive, hpermits, -⟩ | ⟨-, hnone, -⟩ | ⟨-, -, heffect⟩ |
      ⟨-, -, heffect⟩ := attemptEvent_cases ha he
    · rw [heffect] at hd
      cases hd
      rw [h.phase a ?_]
      · exact hpermits
      · refine List.mem_append_left _ (List.mem_filter.2 ⟨List.mem_of_getElem? ha, ?_⟩)
        exact decide_eq_true halive
    · cases hnone.symm.trans hd
    · rw [heffect] at hd
      cases hd
    · rw [heffect] at hd
      cases hd

/-! ### Connections that were given up -/

/-- Whether every connection that was given up was hung up. -/
def HangsUp (n : Network) (seen : List Signal) : Prop :=
  ∀ k a, n.attempts[k]? = some a → a.stage = .up → a.abandoned = true → .hangUp k ∈ seen

variable {seen : List Signal}

/-- The connection of an attempt that was not given up is the current one of its socket. -/
theorem Mirrors.current?_eq (h : n.Mirrors l) (ha : n.attempts[k]? = some a)
    (hup : a.stage = .up) (hkept : a.abandoned = false) : n.current? a.socket = some k := by
  obtain ⟨hk, rfl⟩ := List.getElem?_eq_some_iff.1 ha
  refine List.findIdx?_eq_some_iff_getElem.2 ⟨hk, by simp [hup, hkept], fun j hj hcurrent ↦ ?_⟩
  have hapart : (n.attempts.filter (¬ ·.IsDead)).Pairwise (·.socket ≠ ·.socket) :=
    (List.pairwise_append.1 (List.pairwise_map.1 h.apart)).1
  have hne := List.pairwise_iff_getElem.1 (List.pairwise_filter.1 hapart) j k
    (Nat.lt_trans hj hk) hk hj
  simp only [Bool.and_eq_true, decide_eq_true_eq, Bool.not_eq_true'] at hcurrent
  obtain ⟨⟨hsocket, hup'⟩, hkept'⟩ := hcurrent
  exact hne (by simp [Attempt.IsDead, hup', hkept']) (by simp [Attempt.IsDead, hup, hkept]) hsocket

/-- What the session gives up while it is connected is hung up at once. -/
theorem HangsUp.take (h : n.HangsUp seen) (hn : n.Mirrors l) (asked : Action) :
    (n.take asked).2.HangsUp (seen ++ (n.take asked).1) := by
  intro k a ha hup habandoned
  cases asked with
  | close socket =>
    simp only [Network.take, abandon, withdraw, List.getElem?_map, Option.map_eq_some_iff] at ha
    obtain ⟨b, hb, rfl⟩ := ha
    by_cases hgone : b.abandoned = true
    · refine List.mem_append_left _ (h k b hb ?_ hgone)
      split at hup <;> exact hup
    · by_cases hsocket : b.socket = socket
      · subst hsocket
        rw [if_pos rfl] at hup
        have hcurrent := hn.current?_eq hb hup (Bool.eq_false_iff.2 hgone)
        exact List.mem_append_right _ (by simp [Network.take, hcurrent])
      · rw [if_neg hsocket] at habandoned
        exact absurd habandoned hgone
  | _ => exact List.mem_append_left _ (h k a ha hup habandoned)

/-- Requests that keep to the ledger give up no connection without hanging it up. -/
theorem HangsUp.takeAll {asked : List Action} (h : n.HangsUp seen) (hn : n.Mirrors l)
    (hturns : l.Turns asked l') : (n.takeAll asked).2.HangsUp (seen ++ (n.takeAll asked).1) := by
  induction hturns generalizing n seen with
  | nil =>
    rw [Network.takeAll, List.append_nil]
    exact h
  | cons head _ ih =>
    have hrest := ih (h.take hn _) (hn.take head)
    rwa [List.append_assoc] at hrest

/-- Starting what is queued gives up no connection. -/
theorem HangsUp.settle (h : n.HangsUp seen) : n.settle.2.HangsUp (seen ++ n.settle.1) := by
  intro k a ha hup habandoned
  rw [Network.settle, attempts_startAll, List.getElem?_append] at ha
  split at ha
  · exact List.mem_append_left _ (h k a ha hup habandoned)
  · obtain ⟨r, -, hr⟩ := List.mem_filterMap.1 (List.mem_of_getElem? ha)
    cases r <;> cases hr
    cases hup

/-- An attempt that was given up may come to its connection where that is hung up. -/
theorem HangsUp.setStage (h : n.HangsUp seen) (ha : n.attempts[k]? = some a) {stage : Stage}
    (hk : stage = .up → a.abandoned = true → .hangUp k ∈ seen) :
    (n.setStage k stage).HangsUp seen := by
  intro j b hb hup habandoned
  obtain ⟨b', hb', rfl⟩ := getElem?_setStage hb
  by_cases hj : k = j
  · subst hj
    cases hb'.symm.trans ha
    rw [if_pos rfl] at hup habandoned
    exact hk hup habandoned
  · rw [if_neg hj] at hup habandoned
    exact h j b' hb' hup habandoned

/-- A connection of an attempt that was given up is hung up at once. -/
theorem HangsUp.receive (h : n.HangsUp seen) (e : Event) :
    (n.receive e).2.HangsUp (seen ++ (n.receive e).1.seen) := by
  have hsame : n.HangsUp (seen ++ (n.receive e).1.seen) :=
    fun k a ha hup habandoned ↦ List.mem_append_left _ (h k a ha hup habandoned)
  rcases n.receive_cases e with ⟨-, -, hattempts⟩ | ⟨k, a, ha, he, hreceive⟩
  · intro k a ha
    rw [hattempts] at ha
    exact hsame k a ha
  · rw [hreceive] at hsame ⊢
    obtain ⟨event, heffect, halive, -, hnext⟩ | ⟨-, -, hnext⟩ | ⟨-, habandoned, heffect⟩ |
      ⟨-, -, heffect⟩ := attemptEvent_cases ha he
    · rw [hnext]
      exact hsame.setStage ha fun _ habandoned ↦ absurd (.inl habandoned) halive
    · rw [hnext]
      exact hsame
    · rw [heffect] at hsame ⊢
      exact hsame.setStage ha fun _ _ ↦ by simp
    · rw [heffect] at hsame ⊢
      exact hsame.setStage ha (by simp)

end Rendezvous.Network
