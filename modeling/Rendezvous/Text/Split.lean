/-!
# Splitting

Cutting a list at a separator: at the first one only, or at every one. The pieces hold every
element but the separators, in order.
-/

namespace Rendezvous.Text

/-- Both sides of the first separator, or nothing where there is none. -/
def cutAt {α : Type} [DecidableEq α] (sep : α) (s : List α) : Option (List α × List α) :=
  match s.dropWhile (· ≠ sep) with
  | [] => none
  | _ :: after => some (s.takeWhile (· ≠ sep), after)

/-- An element put in front of the first piece. -/
def pushFirst {α : Type} (a : α) : List (List α) → List (List α)
  | [] => [[a]]
  | piece :: pieces => (a :: piece) :: pieces

/-- The pieces between separators: one more than there are separators. -/
def splitOn {α : Type} [DecidableEq α] (sep : α) : List α → List (List α)
  | [] => [[]]
  | a :: rest => if a = sep then [] :: splitOn sep rest else pushFirst a (splitOn sep rest)

/-- The lines of a message head: a line ends at a carriage return followed by a line feed. -/
def splitLines : List Char → List (List Char)
  | [] => [[]]
  | '\r' :: '\n' :: rest => [] :: splitLines rest
  | c :: rest => pushFirst c (splitLines rest)

/-- There is always a piece. -/
theorem splitOn_ne_nil {α : Type} [DecidableEq α] (sep : α) (s : List α) : splitOn sep s ≠ [] := by
  cases s with
  | nil => simp [splitOn]
  | cons a rest =>
    rw [splitOn]
    split
    · simp
    · cases splitOn sep rest <;> simp [pushFirst]

end Rendezvous.Text
