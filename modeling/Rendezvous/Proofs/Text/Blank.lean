import Mathlib.Data.List.DropRight
import Rendezvous.Text.Blank

/-!
# Trimming

Trimming works on the two ends of a text separately: a character that stays keeps apart what is
removed before it and what is removed behind it.
-/

namespace Rendezvous.Text

variable {p : Char → Bool} {c : Char} {front back : List Char}

private theorem dropWhile_append_cons (h : p c = false) (s rest : List Char) :
    (s ++ c :: rest).dropWhile p = s.dropWhile p ++ c :: rest := by
  rw [List.dropWhile_append]
  split
  · next hempty => simp [List.isEmpty_iff.1 hempty, h]
  · rfl

private theorem rdropWhile_append_cons (h : p c = false) (s rest : List Char) :
    (s ++ c :: rest).rdropWhile p = s ++ c :: rest.rdropWhile p := by
  rw [List.rdropWhile, List.reverse_append, List.reverse_cons, List.append_assoc,
    List.singleton_append, dropWhile_append_cons h, List.reverse_append, List.reverse_cons,
    List.reverse_reverse, List.append_assoc, List.singleton_append, List.rdropWhile]

/-- Before a character that stays only the front is trimmed, behind it only the back. -/
theorem trimOf_append_cons (h : p c = false) (s rest : List Char) :
    trimOf p (s ++ c :: rest) = s.dropWhile p ++ c :: rest.rdropWhile p := by
  show ((s ++ c :: rest).dropWhile p).rdropWhile p = _
  rw [dropWhile_append_cons h, rdropWhile_append_cons h]

/-- What is trimmed in front can be dropped before. -/
theorem trimOf_dropWhile (s : List Char) : trimOf p (s.dropWhile p) = trimOf p s := by
  rw [trimOf, List.dropWhile_idempotent, ← trimOf]

/-- A text starts, once it is trimmed, with the first character that stays. -/
theorem head?_trimOf (s : List Char) : (trimOf p s).head? = (s.dropWhile p).head? := by
  show ((s.dropWhile p).rdropWhile p).head? = _
  cases hs : s.dropWhile p with
  | nil => rfl
  | cons c rest =>
    have hc : p c = false := by
      have hfirst := List.head?_dropWhile_not p s
      rwa [hs] at hfirst
    have hstays := rdropWhile_append_cons hc [] rest
    rw [List.nil_append] at hstays
    rw [hstays]
    rfl

/-- Characters of the class around a text are trimmed with it. -/
theorem trimOf_surround (hfront : ∀ c ∈ front, p c = true) (hback : ∀ c ∈ back, p c = true)
    (s : List Char) : trimOf p (front ++ s ++ back) = trimOf p s := by
  rw [trimOf_append hback, trimOf, List.dropWhile_append_of_pos hfront, ← trimOf]

/-- Trimming takes away what is of the class at either end. -/
theorem exists_trimOf (p : Char → Bool) (s : List Char) :
    ∃ front back, (∀ c ∈ front, p c = true) ∧ (∀ c ∈ back, p c = true) ∧
      s = front ++ trimOf p s ++ back := by
  refine ⟨s.takeWhile p, (s.dropWhile p).rtakeWhile p, fun c hc ↦ List.mem_takeWhile_imp hc,
    fun c hc ↦ List.mem_rtakeWhile_imp hc, ?_⟩
  show s = s.takeWhile p ++ (s.dropWhile p).rdropWhile p ++ (s.dropWhile p).rtakeWhile p
  rw [List.append_assoc, List.rdropWhile_append_rtakeWhile, List.takeWhile_append_dropWhile]

end Rendezvous.Text
