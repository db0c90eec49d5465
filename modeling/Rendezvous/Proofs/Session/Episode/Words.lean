import Rendezvous.Proofs.Session.Machine

/-!
# What is heard of an episode

An episode of a session begins where a connection is asked for and granted, and ends where the
session is disconnected again. What the observer hears of one is a word: the server was not
reached, or the session ended before anything was known, or peers are listed, signing in is
complete, news follows and the session ends. A monitor reads such words event by event.
-/

namespace Rendezvous

namespace Event

/-- Whether an event reports that a peer is there. -/
def IsListing : Event → Prop
  | .peerConnected _ _ => True
  | _ => False

/-- Whether an event is one that a session has between signing in and its end. -/
def IsNotice : Event → Prop
  | .peerConnected _ _ => True
  | .peerDisconnected _ => True
  | .message _ _ => True
  | .messageSent _ => True
  | _ => False

/-- What is heard of an episode that came to its end by itself. -/
def IsWord (heard : List Event) : Prop :=
  heard = [.connectionFailure] ∨ heard = [.disconnected] ∨
    ∃ listed noticed, (∀ e ∈ listed, e.IsListing) ∧ (∀ e ∈ noticed, e.IsNotice) ∧
      heard = listed ++ .signedIn :: noticed ++ [.disconnected]

/-- What is heard of an episode that is under way, or that its owner closed. -/
def IsOpenWord (heard : List Event) : Prop :=
  heard = [] ∨ ∃ listed noticed, (∀ e ∈ listed, e.IsListing) ∧ (∀ e ∈ noticed, e.IsNotice) ∧
    heard = listed ++ .signedIn :: noticed

end Event

/-- How far the word of an episode has come. -/
inductive Stage where
  /-- There is no episode under way. -/
  | idle
  /-- Nothing was heard yet. -/
  | opening
  /-- Peers are being listed. -/
  | listing
  /-- Signing in is complete. -/
  | established
  deriving DecidableEq

namespace Stage

/-- The stage after an event, if the event may come. -/
def after : Stage → Event → Option Stage
  | .opening, .connectionFailure => some .idle
  | .opening, .disconnected => some .idle
  | .opening, .peerConnected _ _ => some .listing
  | .opening, .signedIn => some .established
  | .listing, .peerConnected _ _ => some .listing
  | .listing, .signedIn => some .established
  | .established, .peerConnected _ _ => some .established
  | .established, .peerDisconnected _ => some .established
  | .established, .message _ _ => some .established
  | .established, .messageSent _ => some .established
  | .established, .disconnected => some .idle
  | _, _ => none

/-- The stage after events in order, if all of them may come. -/
def run (st : Stage) (heard : List Event) : Option Stage := heard.foldlM Stage.after st

/-- The monitor reads event by event. -/
theorem run_cons (st : Stage) (e : Event) (rest : List Event) :
    st.run (e :: rest) = (st.after e).bind fun next ↦ next.run rest := by
  rw [run, List.foldlM_cons]
  rfl

/-- The monitor reads one event in one move. -/
theorem run_singleton (st : Stage) (e : Event) : st.run [e] = st.after e := by
  rw [run_cons]
  cases st.after e <;> rfl

/-- The monitor reads words in parts. -/
theorem run_append (st : Stage) (first second : List Event) :
    st.run (first ++ second) = (st.run first).bind fun next ↦ next.run second := by
  rw [run, List.foldlM_append]
  rfl

variable {st next : Stage} {e : Event} {heard : List Event}

/-- A run over one event and more goes by the stage after the event. -/
theorem run_cons_eq_some (h : st.run (e :: heard) = some next) :
    ∃ mid, st.after e = some mid ∧ mid.run heard = some next := by
  rw [run_cons] at h
  exact Option.bind_eq_some_iff.1 h

/-- Out of an episode nothing is heard. -/
theorem eq_nil_of_run_idle (h : idle.run heard = some next) : heard = [] ∧ next = .idle := by
  cases heard with
  | nil => exact ⟨rfl, (Option.some.inj h).symm⟩
  | cons e rest =>
    obtain ⟨mid, hmid, -⟩ := run_cons_eq_some h
    cases hmid

/-- After signing in there are notices, until the end. -/
theorem run_established (h : established.run heard = some next) :
    ∃ noticed : List Event, (∀ e ∈ noticed, e.IsNotice) ∧
      (next = .established ∧ heard = noticed ∨
        next = .idle ∧ heard = noticed ++ [.disconnected]) := by
  induction heard with
  | nil => exact ⟨[], List.forall_mem_nil _, .inl ⟨(Option.some.inj h).symm, rfl⟩⟩
  | cons e rest ih =>
    obtain ⟨mid, hmid, hrest⟩ := run_cons_eq_some h
    have hnotice (he : e.IsNotice) (hstay : established.after e = some .established) :
        ∃ noticed : List Event, (∀ e ∈ noticed, e.IsNotice) ∧
          (next = .established ∧ e :: rest = noticed ∨
            next = .idle ∧ e :: rest = noticed ++ [.disconnected]) := by
      cases hmid.symm.trans hstay
      obtain ⟨noticed, hnoticed, hword⟩ := ih hrest
      refine ⟨e :: noticed, List.forall_mem_cons.2 ⟨he, hnoticed⟩, ?_⟩
      exact hword.imp (And.imp_right (congrArg _)) (And.imp_right (congrArg _))
    cases e with
    | peerConnected id name => exact hnotice trivial rfl
    | peerDisconnected id => exact hnotice trivial rfl
    | message id payload => exact hnotice trivial rfl
    | messageSent status => exact hnotice trivial rfl
    | disconnected =>
      cases hmid
      obtain ⟨rfl, rfl⟩ := eq_nil_of_run_idle hrest
      exact ⟨[], List.forall_mem_nil _, .inr ⟨rfl, rfl⟩⟩
    | signedIn => cases hmid
    | connectionFailure => cases hmid

/-- Listing goes on until signing in is complete. -/
theorem run_listing (h : listing.run heard = some next) :
    next = .listing ∨ ∃ listed noticed : List Event,
      (∀ e ∈ listed, e.IsListing) ∧ (∀ e ∈ noticed, e.IsNotice) ∧
      (next = .established ∧ heard = listed ++ .signedIn :: noticed ∨
        next = .idle ∧ heard = listed ++ .signedIn :: noticed ++ [.disconnected]) := by
  induction heard with
  | nil => exact .inl (Option.some.inj h).symm
  | cons e rest ih =>
    obtain ⟨mid, hmid, hrest⟩ := run_cons_eq_some h
    cases e with
    | peerConnected id name =>
      cases hmid
      refine (ih hrest).imp_right ?_
      rintro ⟨listed, noticed, hlisted, hnoticed, hword⟩
      refine ⟨.peerConnected id name :: listed, noticed, List.forall_mem_cons.2 ⟨trivial, hlisted⟩,
        hnoticed, ?_⟩
      exact hword.imp (And.imp_right (congrArg _)) (And.imp_right (congrArg _))
    | signedIn =>
      cases hmid
      obtain ⟨noticed, hnoticed, hword⟩ := run_established hrest
      refine .inr ⟨[], noticed, List.forall_mem_nil _, hnoticed, ?_⟩
      exact hword.imp (And.imp_right (congrArg _)) (And.imp_right (congrArg _))
    | disconnected => cases hmid
    | peerDisconnected id => cases hmid
    | message id payload => cases hmid
    | messageSent status => cases hmid
    | connectionFailure => cases hmid

/-- From the beginning of an episode, the monitor comes to its end just over words. -/
theorem run_opening (h : opening.run heard = some next) :
    next = .listing ∨ next = .idle ∧ Event.IsWord heard ∨
      next ≠ .idle ∧ Event.IsOpenWord heard := by
  cases heard with
  | nil => exact .inr (.inr ⟨by rw [← Option.some.inj h]; decide, .inl rfl⟩)
  | cons e rest =>
    obtain ⟨mid, hmid, hrest⟩ := run_cons_eq_some h
    cases e with
    | connectionFailure =>
      cases hmid
      obtain ⟨rfl, rfl⟩ := eq_nil_of_run_idle hrest
      exact .inr (.inl ⟨rfl, .inl rfl⟩)
    | disconnected =>
      cases hmid
      obtain ⟨rfl, rfl⟩ := eq_nil_of_run_idle hrest
      exact .inr (.inl ⟨rfl, .inr (.inl rfl)⟩)
    | peerConnected id name =>
      cases hmid
      refine (run_listing hrest).imp_right ?_
      rintro ⟨listed, noticed, hlisted, hnoticed, ⟨rfl, rfl⟩ | ⟨rfl, rfl⟩⟩
      · exact .inr ⟨by decide, .inr ⟨.peerConnected id name :: listed, noticed,
          List.forall_mem_cons.2 ⟨trivial, hlisted⟩, hnoticed, rfl⟩⟩
      · exact .inl ⟨rfl, .inr (.inr ⟨.peerConnected id name :: listed, noticed,
          List.forall_mem_cons.2 ⟨trivial, hlisted⟩, hnoticed, rfl⟩)⟩
    | signedIn =>
      cases hmid
      obtain ⟨noticed, hnoticed, ⟨rfl, rfl⟩ | ⟨rfl, rfl⟩⟩ := run_established hrest
      · exact .inr (.inr ⟨by decide, .inr ⟨[], rest, List.forall_mem_nil _, hnoticed, rfl⟩⟩)
      · exact .inr (.inl ⟨rfl, .inr (.inr ⟨[], noticed, List.forall_mem_nil _, hnoticed, rfl⟩)⟩)
    | peerDisconnected id => cases hmid
    | message id payload => cases hmid
    | messageSent status => cases hmid

end Stage

end Rendezvous
