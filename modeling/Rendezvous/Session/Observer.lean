import Rendezvous.Session.Calls

/-!
# Observers

An observer hears every event of a session and may at once make calls of its own, or refuse to go
on. Since calls may cause further events, which the observer hears before the call returns, how
deep this nesting may go is given as a number; an observer that has come to that depth only
listens.
-/

namespace Rendezvous

/-- Something an observer does when it is told of an event. -/
inductive Deed where
  | call (c : Call)
  /-- Makes a call, and goes on even where the call stops at a fault. -/
  | attempt (c : Call)
  /-- Refuses to go on. -/
  | refuse
  deriving DecidableEq, Repr

/-- What an observer does on an event, given everything there is to see. -/
abbrev Observer := Machine → Event → List Deed

namespace Observer

/-- Hears everything and does nothing. -/
def silent : Observer := fun _ _ => []

/-- What the observer has heard so far, in order. -/
def heard (m : Machine) : List Event :=
  (Host.notes m.host.log).filterMap fun
    | .heard event _ => some event
    | .called _ _ => none

/-- Carries out deeds one after another, and notes the answer to each call, if it came to one. -/
def carryOut (tell : Event → SessionM Unit) : List Deed → SessionM Unit
  | [] => pure ()
  | .refuse :: _ => throw .observer
  | .call c :: rest => do
    let answer ← SessionM.perform tell c
    modify (·.note (.called c answer))
    carryOut tell rest
  | .attempt c :: rest => do
    let answer ← tryCatch (SessionM.perform tell c) fun _ => pure none
    modify (·.note (.called c answer))
    carryOut tell rest

/-- Tells the observer of an event, to a depth of nesting. Without an observer nothing is told. -/
def tell (o : Observer) : Nat → Event → SessionM Unit
  | depth, event => do
    let m ← get
    if m.observed then
      let m := m.note (.heard event m.session)
      set m
      match depth with
      | 0 => pure ()
      | depth + 1 => carryOut (o.tell depth) (o m event)

end Observer

/-- Deeds for the n-th event of a kind, counted from one. -/
structure Reaction where
  kind : Event.Kind
  nth : Nat
  deeds : List Deed
  deriving DecidableEq, Repr

/-- An observer that does what its reactions say, and nothing otherwise. Each reaction comes to
pass once, so events nest no deeper than there are reactions. -/
def Reaction.observer (reactions : List Reaction) : Observer := fun m event =>
  let count := (Observer.heard m).countP (·.kind = event.kind)
  (reactions.filter fun r => r.kind = event.kind && r.nth = count).flatMap Reaction.deeds

end Rendezvous
