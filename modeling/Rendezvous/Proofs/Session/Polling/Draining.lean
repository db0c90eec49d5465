import Rendezvous.Proofs.Session.Polling.Reading
import Rendezvous.Proofs.Wire.Uses

/-!
# Draining ends

The long poll polls its framer again and again until nothing is found, the bytes cannot be framed,
or the server closes. Every response that it finds takes four bytes or more off the buffer, so that
the number of polls is bounded by the number of bytes held. With it goes what a framer owes to
whoever uses it, in any order of feeding and polling.
-/

namespace Rendezvous

open Wire

namespace NotifyLink

variable {f : Framer}

/-- Polls until there is nothing more, an error or a close, and gives up after so many polls. -/
def drainWithin : Nat → Framer → Option (List Response × Outcome × Framer)
  | 0, _ => none
  | polls + 1, f =>
    match f.poll with
    | (.error e, f) => some ([], .failed e, f)
    | (.ok none, f) => some ([], .more, f)
    | (.ok (some response), f) =>
      if response.closes then some ([response], .closing, f.reset)
      else (drainWithin polls f).map fun read ↦ (response :: read.1, read.2)

/-- A poll for every four bytes held, and one more, are enough. -/
theorem drainWithin_eq_drain {polls : Nat} (h : f.buffered < 4 * polls) :
    drainWithin polls f = some (drain f) := by
  induction polls generalizing f with
  | zero => exact absurd h (Nat.not_lt_zero _)
  | succ polls ih =>
    rw [drainWithin, Framer.poll]
    rcases hnext : f.next? with e | _ | ⟨response, rest⟩
    · rw [drain_of_error hnext]
    · rw [drain_of_none hnext]
    · cases hcloses : response.closes with
      | true =>
        simp only [hcloses, ↓reduceIte]
        rw [drain_of_closes hnext hcloses]
        rfl
      | false =>
        have hfour := Framer.four_le_length_of_next? hnext
        have hlength := congrArg List.length (Framer.buffer_eq_of_next? hnext)
        have hfewer : ({ f with buffer := rest } : Framer).buffered < 4 * polls := by
          simp only [Framer.buffered, List.length_append] at h hlength ⊢
          omega
        simp only [hcloses, Bool.false_eq_true, ↓reduceIte]
        rw [ih hfewer, drain_of_stays hnext hcloses, Option.map_some]

/-- What a link takes from received bytes is found with one poll for every four bytes that are then
held, and one more. -/
theorem drainWithin_eq_receive {ν : Type} (l : NotifyLink) (bytes : Bytes) (h : Host ν) :
    drainWithin ((l.framer.feed bytes).buffered / 4 + 1) (l.framer.feed bytes) =
      some ((l.receive bytes h).1, (l.receive bytes h).2.1, (l.receive bytes h).2.2.1.framer) :=
  drainWithin_eq_drain (by omega)

end NotifyLink

namespace Wire.Framer

/-- However a framer is fed and polled, the responses it gave and the bytes it holds are what it was
fed. A poll that gives nothing leaves it alone, and an error says how much is held. A response is
given just when one is held, takes its head, its end and its body off the front, and so at least
four bytes. Hence a link that drains whatever framer comes to an end. -/
theorem accounts_for_bytes {ν : Type} (limit : Option Int) (uses : List Use) :
    let f := (({ limit } : Framer).use uses).2
    (({ limit } : Framer).use uses).1.flatMap Answer.bytes ++ f.buffer = fed uses ∧
    (f.poll.1 = .ok none → f.poll.2 = f) ∧
    (∀ e, f.poll.1 = .error e → f.poll.2 = f ∧ e.buffered = f.buffer.length) ∧
    ((∃ response, f.poll.1 = .ok (some response)) ↔ ∃ k n, f.Holds k n) ∧
    (∀ response, f.poll.1 = .ok (some response) → ∃ k n, f.Holds k n ∧
      f.headEnd? = some k ∧ response.raw = f.buffer.take k ++ headEnd ++ response.body ∧
      response.body.length = n ∧ f.buffer = response.raw ++ f.poll.2.buffer ∧
      f.poll.2.buffer.length + 4 ≤ f.buffer.length) ∧
    ∀ (l : NotifyLink) (bytes : Bytes) (h : Host ν),
      NotifyLink.drainWithin ((l.framer.feed bytes).buffered / 4 + 1) (l.framer.feed bytes) =
        some ((l.receive bytes h).1, (l.receive bytes h).2.1,
          (l.receive bytes h).2.2.1.framer) := by
  intro f
  refine ⟨?_, ?_, ?_, exists_poll_iff, ?_, NotifyLink.drainWithin_eq_receive⟩
  · exact bytes_use_append { limit } uses
  · intro hnone
    exact poll_stays fun response ↦ by simp [hnone]
  · intro e herror
    exact ⟨poll_stays fun response ↦ by simp [herror],
      buffered_of_next? (fst_poll_eq_error_iff.1 herror)⟩
  · intro response hgiven
    obtain ⟨k, n, hheld, hraw, hbody, hbuffer⟩ := poll_takes hgiven
    refine ⟨k, n, hheld, headEnd?_eq_some_iff.2 hheld.ends, hraw, hbody, hbuffer, ?_⟩
    obtain ⟨rest, hnext⟩ := fst_poll_eq_some_iff.1 hgiven
    have hfour := four_le_length_of_next? hnext
    have hlength := congrArg List.length hbuffer
    rw [List.length_append] at hlength
    omega

end Wire.Framer

end Rendezvous
