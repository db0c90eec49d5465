/-!
# Blanks

The characters that count as blank around a word, and trimming. Two classes are needed: the
characters with the Unicode property White_Space, which may surround a numeral, and that class
with the four information separators U+001C to U+001F, which is what trimming a field removes.
-/

namespace Rendezvous.Text

/-- The Unicode property White_Space. -/
def isWhiteSpace (c : Char) : Bool :=
  let n := c.toNat
  (9 ≤ n && n ≤ 13) || n == 0x20 || n == 0x85 || n == 0xA0 || n == 0x1680 ||
    (0x2000 ≤ n && n ≤ 0x200A) || n == 0x2028 || n == 0x2029 || n == 0x202F ||
    n == 0x205F || n == 0x3000

/-- The information separators: file, group, record and unit. -/
def isInformationSeparator (c : Char) : Bool := 0x1C ≤ c.toNat && c.toNat ≤ 0x1F

/-- What trimming a field removes: white space and the information separators. -/
def isBlank (c : Char) : Bool := isWhiteSpace c || isInformationSeparator c

/-- The text without the characters of a class at either end. -/
def trimOf (p : Char → Bool) (s : List Char) : List Char :=
  ((s.dropWhile p).reverse.dropWhile p).reverse

/-- The text without blanks at either end. -/
def trim (s : List Char) : List Char := trimOf isBlank s

/-- Trimming leaves a text alone that neither starts nor ends with a character of the class. -/
theorem trimOf_eq_self {p : Char → Bool} {s : List Char}
    (hd : ∀ c, s.head? = some c → p c = false) (tl : ∀ c, s.getLast? = some c → p c = false) :
    trimOf p s = s := by
  have first : ∀ {t : List Char}, (∀ c, t.head? = some c → p c = false) → t.dropWhile p = t := by
    intro t ht
    cases t with
    | nil => rfl
    | cons c rest => simp [ht c rfl]
  have last : ∀ c, s.reverse.head? = some c → p c = false := by
    intro c hc
    exact tl c (by simpa using hc)
  rw [trimOf, first hd, first last, List.reverse_reverse]

/-- Characters of the class behind a text are trimmed with it. -/
theorem trimOf_append {p : Char → Bool} {ends : List Char} (h : ∀ c ∈ ends, p c = true)
    (s : List Char) : trimOf p (s ++ ends) = trimOf p s := by
  have hnone : (ends ++ []).dropWhile p = [] := List.dropWhile_append_of_pos h
  rw [List.append_nil] at hnone
  have hback : ∀ c ∈ ends.reverse, p c = true := fun c hc => h c (List.mem_reverse.1 hc)
  rw [trimOf, trimOf, List.dropWhile_append, hnone]
  split
  · next hempty => rw [List.isEmpty_iff.1 hempty]
  · rw [List.reverse_append, List.dropWhile_append_of_pos hback]

end Rendezvous.Text
