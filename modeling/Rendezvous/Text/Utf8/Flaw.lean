import Rendezvous.Text.Quoted
import Rendezvous.Text.Utf8

/-!
# Flaws of UTF-8

Where a file first fails to be text, and what a strict reader says of it. The reader takes the
file block by block. The beginning of a character at the end of a block is held back and put in
front of the next one, and places are counted from the start of what is looked at then. A file
has a flaw just when strict decoding refuses it, wherever its blocks end.
-/

namespace Rendezvous.Text.Utf8

/-- In what way a part of a text is ill formed. -/
inductive FlawKind where
  /-- No character starts with this byte. -/
  | start
  /-- The byte after the part does not continue it. -/
  | continuation
  /-- The text ends within a character. -/
  | truncated
  deriving DecidableEq, Repr

/-- The first ill-formed part: its first byte, where it stands, and how many bytes it has. -/
structure Flaw where
  kind : FlawKind
  first : UInt8
  offset : Nat
  size : Nat
  deriving DecidableEq, Repr

/-- The ill-formed part that a byte starts, if it starts one. -/
def flawAt? (offset : Nat) (b : UInt8) (rest : Bytes) : Option Flaw :=
  match readChar b rest with
  | (some _, _) => none
  | (none, after) =>
    let size := 1 + (rest.length - after.length)
    if (lead? b).isNone then some ⟨.start, b, offset, size⟩
    else if after.isEmpty then some ⟨.truncated, b, offset, size⟩
    else some ⟨.continuation, b, offset, size⟩

/-- Whether a flaw at the end of a block may be no flaw, or another one, once more bytes follow.
The first two bytes of a surrogate count as well, as if the third could mend them. -/
def isOpen (flaw : Flaw) (rest : Bytes) : Bool :=
  flaw.kind = .truncated ||
    match rest with
    | [next] => flaw.first = 0xED && 0xA0 ≤ next && next ≤ 0xBF
    | _ => false

/-- How many bytes a well-formed character has that starts with a byte. -/
def width (b : UInt8) : Nat := 1 + ((lead? b).map Lead.tail).getD 0

/-- Looks through bytes, counted from an offset: the bytes at their end that are held back, or
the first flaw. At the end of the file nothing is held back. -/
def scan (final : Bool) (offset : Nat) (bytes : Bytes) : Except Flaw Bytes :=
  match bytes with
  | [] => .ok []
  | b :: rest =>
    match flawAt? offset b rest with
    | some flaw => if !final && isOpen flaw rest then .ok (b :: rest) else .error flaw
    | none => scan final (offset + width b) (readChar b rest).2
termination_by bytes.length
decreasing_by exact Nat.lt_succ_of_le (length_readChar_le b rest)

/-- How many bytes a block has. -/
def blockSize : Nat := 8192

/-- The first flaw of what is left of a file, behind the bytes that were held back. -/
def flawBehind? (held bytes : Bytes) : Option Flaw :=
  match bytes with
  | [] =>
    match scan true 0 held with
    | .ok _ => none
    | .error flaw => some flaw
  | b :: rest =>
    match scan false 0 (held ++ (b :: rest).take blockSize) with
    | .ok held => flawBehind? held ((b :: rest).drop blockSize)
    | .error flaw => some flaw
termination_by bytes.length
decreasing_by simp only [List.length_drop, List.length_cons, blockSize]; omega

/-- The first flaw of a file. -/
def flaw? (bytes : Bytes) : Option Flaw := flawBehind? [] bytes

/-- What is wrong, in words. -/
def FlawKind.message : FlawKind → String
  | .start => "invalid start byte"
  | .continuation => "invalid continuation byte"
  | .truncated => "unexpected end of data"

/-- What is said of an ill-formed part. -/
def Flaw.message (f : Flaw) : String :=
  let place :=
    if f.size = 1 then
      "byte 0x" ++ String.ofList (Quoted.hexDigits 2 f.first.toNat) ++ s!" in position {f.offset}"
    else
      let last := f.offset + f.size - 1
      s!"bytes in position {f.offset}-{last}"
  "'utf-8' codec can't decode " ++ place ++ ": " ++ f.kind.message

/-- There is no flaw just where a character can be read. -/
theorem flawAt?_eq_none_iff {offset : Nat} {b : UInt8} {rest : Bytes} :
    flawAt? offset b rest = none ↔ (readChar b rest).1.isSome := by
  rw [flawAt?]
  match h : readChar b rest with
  | (some c, _) => simp
  | (none, after) =>
    simp only [Option.isSome_none, Bool.false_eq_true, iff_false]
    split
    · simp
    · split <;> simp

/-- Bytes that follow change nothing once the reading has come to an end before them. -/
theorem readTail_append {value : Nat} {low high : UInt8} {tail : Nat} {bytes : Bytes}
    (more : Bytes)
    (h : (readTail value low high tail bytes).1.isSome ∨
      (readTail value low high tail bytes).2 ≠ []) :
    readTail value low high tail (bytes ++ more) =
      ((readTail value low high tail bytes).1, (readTail value low high tail bytes).2 ++ more) := by
  induction tail generalizing value low high bytes with
  | zero => rfl
  | succ tail ih =>
    cases bytes with
    | nil => simp [readTail] at h
    | cons b rest =>
      rw [readTail] at h
      rw [List.cons_append, readTail, readTail]
      split
      · next hb => exact ih (by simpa [hb] using h)
      · rfl

/-- A character that is complete, and a part that cannot become one, stay what they are. -/
theorem readChar_append {b : UInt8} {rest : Bytes} (more : Bytes)
    (h : (readChar b rest).1.isSome ∨ (lead? b).isNone ∨ (readChar b rest).2 ≠ []) :
    readChar b (rest ++ more) = ((readChar b rest).1, (readChar b rest).2 ++ more) := by
  rw [readChar] at h ⊢
  rw [readChar]
  split
  · rfl
  · next hb =>
    cases hl : lead? b with
    | none => rfl
    | some l =>
      simp only [hb, hl, if_false, Option.isNone_some, Bool.false_eq_true, false_or,
        Option.isSome_map] at h
      simp only [readTail_append more h]

/-- A flaw that is not open is one whatever follows. -/
theorem readChar_append_of_flawAt? {offset : Nat} {b : UInt8} {rest : Bytes} {flaw : Flaw}
    (more : Bytes) (h : flawAt? offset b rest = some flaw) (hopen : isOpen flaw rest = false) :
    (readChar b (rest ++ more)).1 = none := by
  rw [flawAt?] at h
  match hc : readChar b rest with
  | (some c, after) => simp [hc] at h
  | (none, after) =>
    rw [readChar_append more, hc]
    by_cases hl : (lead? b).isNone
    · exact .inr (.inl hl)
    · refine .inr (.inr fun he => ?_)
      rw [hc] at he
      simp only [hc, hl, show after = [] from he, Bool.false_eq_true, if_false,
        List.isEmpty_nil, if_true, Option.some.injEq] at h
      simp [isOpen, ← h] at hopen

/-- What is held back stands for all that was looked through. -/
theorem scan_eq_ok {final : Bool} {offset : Nat} {bytes held : Bytes}
    (h : scan final offset bytes = .ok held) (more : Bytes) :
    (∀ c ∈ read (bytes ++ more), c.isSome) ↔ ∀ c ∈ read (held ++ more), c.isSome := by
  fun_induction scan final offset bytes with
  | case1 => simp_all
  | case2 offset b rest flaw hf hopen => simp_all
  | case3 offset b rest flaw hf hopen => simp at h
  | case4 offset b rest hf ih =>
    have hc := flawAt?_eq_none_iff.1 hf
    rw [← ih h, List.cons_append, read, readChar_append more (.inl hc)]
    simp [hc]

/-- A reader that does not wait for more holds nothing back. -/
theorem held_eq_nil {offset : Nat} {bytes held : Bytes}
    (h : scan true offset bytes = .ok held) : held = [] := by
  fun_induction scan true offset bytes with
  | case1 => simp_all
  | case2 offset b rest flaw hf hopen => simp at hopen
  | case3 offset b rest flaw hf hopen => simp at h
  | case4 offset b rest hf ih => exact ih h

/-- A flaw that is found is one whatever follows. -/
theorem scan_eq_error {final : Bool} {offset : Nat} {bytes : Bytes} {flaw : Flaw}
    (h : scan final offset bytes = .error flaw) (more : Bytes) (hmore : final → more = []) :
    ¬ ∀ c ∈ read (bytes ++ more), c.isSome := by
  fun_induction scan final offset bytes with
  | case1 => simp at h
  | case2 offset b rest flaw hf hopen => simp at h
  | case3 offset b rest flaw' hf hopen =>
    have hc : (readChar b (rest ++ more)).1 = none := by
      cases final with
      | false => exact readChar_append_of_flawAt? more hf (by simpa using hopen)
      | true =>
        rw [hmore rfl, List.append_nil]
        refine Option.not_isSome_iff_eq_none.1 fun hsome => ?_
        simp [flawAt?_eq_none_iff.2 hsome] at hf
    rw [List.cons_append, read, hc]
    simp
  | case4 offset b rest hf ih =>
    have hc := flawAt?_eq_none_iff.1 hf
    rw [List.cons_append, read, readChar_append more (.inl hc)]
    simpa [hc] using ih h

/-- There is no flaw further on just where everything can be read. -/
theorem flawBehind?_eq_none_iff {held bytes : Bytes} :
    flawBehind? held bytes = none ↔ ∀ c ∈ read (held ++ bytes), c.isSome := by
  fun_induction flawBehind? held bytes with
  | case1 held rest h =>
    have := scan_eq_ok h []
    rw [held_eq_nil h] at this
    simpa [read] using this
  | case2 held flaw h => simpa using scan_eq_error h [] (fun _ => rfl)
  | case3 held b rest held' h ih =>
    rw [ih, ← scan_eq_ok h, List.append_assoc, List.take_append_drop]
  | case4 held b rest flaw h =>
    have := scan_eq_error h ((b :: rest).drop blockSize) (by simp)
    rw [List.append_assoc, List.take_append_drop] at this
    simp only [this, reduceCtorEq]

/-- A file has a flaw just when strict decoding refuses it. -/
theorem flaw?_eq_none_iff {bytes : Bytes} : flaw? bytes = none ↔ (decode? bytes).isSome := by
  rw [flaw?, flawBehind?_eq_none_iff, List.nil_append, decode?]
  generalize read bytes = chars
  induction chars with
  | nil => simp
  | cons c rest ih =>
    cases c with
    | none => simp [List.mapM_cons]
    | some c =>
      simp only [List.mem_cons, forall_eq_or_imp, Option.isSome_some, true_and, ih]
      cases h : rest.mapM id <;> simp [List.mapM_cons, h]

end Rendezvous.Text.Utf8
