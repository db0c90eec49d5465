import Rendezvous.Text.Latin1
import Rendezvous.Text.Split

/-!
# Splitting what was joined

A piece without the separator comes back as it was, in front of what is split of the rest. The same
holds of the lines of a message head, which may have no carriage return.
-/

namespace Rendezvous.Text

section Separators

variable {α : Type} [DecidableEq α] {sep : α} {piece : List α}

/-- A text is cut at its first separator. -/
theorem cutAt_append_cons (h : sep ∉ piece) (rest : List α) :
    cutAt sep (piece ++ sep :: rest) = some (piece, rest) := by
  have hall : ∀ a ∈ piece, decide (a ≠ sep) = true := fun a ha ↦
    decide_eq_true fun heq ↦ h (heq ▸ ha)
  have hdrop : (piece ++ sep :: rest).dropWhile (· ≠ sep) = sep :: rest := by
    rw [List.dropWhile_append_of_pos hall]
    simp
  have htake : (piece ++ sep :: rest).takeWhile (· ≠ sep) = piece := by
    rw [List.takeWhile_append_of_pos hall]
    simp
  simp only [cutAt, hdrop, htake]

/-- Without a separator there is one piece. -/
theorem splitOn_of_notMem (h : sep ∉ piece) : splitOn sep piece = [piece] := by
  induction piece with
  | nil => rfl
  | cons a tail ih =>
    rw [List.mem_cons, not_or] at h
    rw [splitOn, if_neg (Ne.symm h.1), ih h.2]
    rfl

/-- The pieces on both sides of a separator. -/
theorem splitOn_append_sep (front back : List α) :
    splitOn sep (front ++ sep :: back) = splitOn sep front ++ splitOn sep back := by
  induction front with
  | nil => simp [splitOn]
  | cons a rest ih =>
    rw [List.cons_append, splitOn, splitOn, ih]
    split
    · rfl
    · obtain ⟨first, others, hfirst⟩ := List.exists_cons_of_ne_nil (splitOn_ne_nil sep rest)
      rw [hfirst]
      rfl

/-- What stands before the first separator is the first piece. -/
theorem splitOn_append_cons (h : sep ∉ piece) (rest : List α) :
    splitOn sep (piece ++ sep :: rest) = piece :: splitOn sep rest := by
  rw [splitOn_append_sep, splitOn_of_notMem h]
  rfl

/-- Pieces with the separator behind each, and what stands behind the last of them. -/
theorem splitOn_flatMap_append {pieces : List (List α)} (h : ∀ piece ∈ pieces, sep ∉ piece)
    (rest : List α) :
    splitOn sep (pieces.flatMap (· ++ [sep]) ++ rest) = pieces ++ splitOn sep rest := by
  induction pieces with
  | nil => rfl
  | cons piece others ih =>
    rw [List.forall_mem_cons] at h
    rw [List.flatMap_cons, List.append_assoc, List.append_assoc, List.singleton_append,
      splitOn_append_cons h.1, ih h.2]
    rfl

/-- Where every piece has the separator behind it, an empty piece follows the last. -/
theorem splitOn_flatMap_concat {pieces : List (List α)} (h : ∀ piece ∈ pieces, sep ∉ piece) :
    splitOn sep (pieces.flatMap (· ++ [sep])) = pieces ++ [[]] := by
  have hnothing := splitOn_flatMap_append h []
  rwa [List.append_nil] at hnothing

end Separators

/-! ### Lines of a head -/

private theorem splitLines_of_notMem {line : List Char} (h : '\r' ∉ line) :
    splitLines line = [line] := by
  induction line with
  | nil => rfl
  | cons c rest ih =>
    rw [List.mem_cons, not_or] at h
    rw [splitLines.eq_3 _ _ fun _ hc _ ↦ h.1 hc.symm, ih h.2]
    rfl

private theorem splitLines_append {line : List Char} (h : '\r' ∉ line) (rest : List Char) :
    splitLines (line ++ '\r' :: '\n' :: rest) = line :: splitLines rest := by
  induction line with
  | nil => rw [List.nil_append, splitLines]
  | cons c tail ih =>
    rw [List.mem_cons, not_or] at h
    rw [List.cons_append, splitLines.eq_3 _ _ fun _ hc _ ↦ h.1 hc.symm, ih h.2]
    rfl

/-- The lines of a head whose first is followed by others, each on a line of its own. -/
theorem splitLines_append_flatMap {line : List Char} {lines : List (List Char)} (h : '\r' ∉ line)
    (hlines : ∀ l ∈ lines, '\r' ∉ l) :
    splitLines (line ++ lines.flatMap ('\r' :: '\n' :: ·)) = line :: lines := by
  induction lines generalizing line with
  | nil => rw [List.flatMap_nil, List.append_nil, splitLines_of_notMem h]
  | cons next rest ih =>
    rw [List.forall_mem_cons] at hlines
    rw [List.flatMap_cons, List.cons_append, List.cons_append, splitLines_append h,
      ih hlines.1 hlines.2]

namespace Latin1

private theorem charOf_inj {a b : UInt8} : charOf a = charOf b ↔ a = b := by
  constructor
  · intro h
    rw [← UInt8.toNat_inj, ← toNat_charOf, h, toNat_charOf]
  · exact congrArg charOf

/-- A character below 256 is that of its byte. -/
theorem charOf_ofNat {c : Char} (h : c.toNat < 256) : charOf (UInt8.ofNat c.toNat) = c := by
  rw [charOf, UInt8.toNat_ofNat', Nat.mod_eq_of_lt h, Char.ofNat_toNat]

/-- A byte stands in a run just when its character stands in the text. -/
theorem charOf_mem_decode {b : UInt8} {bytes : Bytes} : charOf b ∈ decode bytes ↔ b ∈ bytes := by
  simp only [decode, List.mem_map, charOf_inj, exists_eq_right]

end Latin1

end Rendezvous.Text
