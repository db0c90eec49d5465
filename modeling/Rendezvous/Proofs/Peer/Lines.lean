import Rendezvous.Proofs.Peer.Listing
import Rendezvous.Proofs.Text.LineFeed

/-!
# A listing goes line by line

What a line of a listing says depends on its own bytes only: whatever ill-formed text stands in one
line, its neighbours read as if it was not there. So a listing of entries that were written reads as
these entries, whatever begins of a further line behind them.
-/

namespace Rendezvous.Peer

open Text

/-! ### Listings and lines -/

/-- The entries of the lines up to a line feed, and those of what stands behind it. -/
theorem readListing_append_lf (front back : Bytes) : readListing (front ++ Bytes.lf :: back) =
    (splitOn '\n' (Utf8.decodeLossy front)).filterMap Entry.read? ++ readListing back := by
  rw [readListing, Utf8.decodeLossy_append_lf, splitOn_append_sep,
    List.dropLast_append_of_ne_nil (splitOn_ne_nil _ _), List.filterMap_append, readListing]

/-- What no line feed follows is no line. -/
theorem readListing_of_notMem {bytes : Bytes} (h : Bytes.lf ∉ bytes) : readListing bytes = [] := by
  rw [readListing, splitOn_of_notMem (Utf8.lf_notMem_decodeLossy h)]
  rfl

/-- A line has at most one entry, its own. -/
theorem readListing_line {line : Bytes} (h : Bytes.lf ∉ line) (after : Bytes) :
    readListing (line ++ Bytes.lf :: after) =
      (Entry.read? (Utf8.decodeLossy line)).toList ++ readListing after := by
  rw [readListing_append_lf, splitOn_of_notMem (Utf8.lf_notMem_decodeLossy h)]
  cases hread : Entry.read? (Utf8.decodeLossy line) <;> simp [hread]

/-- Behind the end of a line a listing starts anew. -/
theorem readListing_append {before : Bytes}
    (h : before = [] ∨ before.getLast? = some Bytes.lf) (after : Bytes) :
    readListing (before ++ after) = readListing before ++ readListing after := by
  have hnone : readListing [] = [] := readListing_of_notMem List.not_mem_nil
  rcases h with rfl | h
  · rw [hnone, List.nil_append, List.nil_append]
  · obtain ⟨lines, rfl⟩ := List.getLast?_eq_some_iff.1 h
    rw [List.append_assoc, List.singleton_append, readListing_append_lf, readListing_append_lf,
      hnone, List.append_nil]

/-- A bad line never touches its neighbours. Behind the end of a line a listing starts anew, and
what no line feed follows is passed over; so of three parts of a listing, the lines before a line,
the line, and what stands behind it, each gives its own entries, whatever bytes the others have. The
entry of the line, present or absent, depends on the line only. -/
theorem readListing_by_lines {before : Bytes}
    (h : before = [] ∨ before.getLast? = some Bytes.lf) (after : Bytes) :
    readListing (before ++ after) = readListing before ++ readListing after ∧
    ∀ line : Bytes, Bytes.lf ∉ line →
      readListing (before ++ line) = readListing before ∧
      readListing (before ++ line ++ Bytes.lf :: after) =
        readListing before ++ (Entry.read? (Utf8.decodeLossy line)).toList ++
          readListing after := by
  refine ⟨readListing_append h after, fun line hline ↦ ⟨?_, ?_⟩⟩
  · rw [readListing_append h, readListing_of_notMem hline, List.append_nil]
  · rw [List.append_assoc, readListing_append h, readListing_line hline, List.append_assoc]

/-- A line that ends within a character, between two that can be read. -/
theorem readListing_by_lines_truncated :
    let before := Bytes.ofAscii "a,1,1\n"
    let line := [0xF0, 0x9F]
    (before.getLast? = some Bytes.lf ∧ Bytes.lf ∉ line) ∧
    readListing (before ++ line ++ Bytes.lf :: Bytes.ofAscii "b,2,0\n") =
      [⟨"a", 1, true⟩, ⟨"b", 2, false⟩] := by
  intro before line
  have hparts : before.getLast? = some Bytes.lf ∧ Bytes.lf ∉ line := by decide +kernel
  have hread : readListing before = [⟨"a", 1, true⟩] ∧
      Entry.read? (Utf8.decodeLossy line) = none ∧
      readListing (Bytes.ofAscii "b,2,0\n") = [⟨"b", 2, false⟩] := by decide +kernel
  obtain ⟨-, hlines⟩ := readListing_by_lines (.inr hparts.1) (Bytes.ofAscii "b,2,0\n")
  refine ⟨hparts, ?_⟩
  rw [(hlines line hparts.2).2, hread.1, hread.2.1, hread.2.2]
  rfl

/-! ### Entries that were written -/

/-- The end of a line, with a carriage return in front of the line feed or without. -/
inductive Ending where
  | lf
  | crlf
  deriving DecidableEq, Repr

/-- What stands in front of the line feed. -/
def Ending.lead : Ending → List Char
  | .lf => []
  | .crlf => ['\r']

/-- An entry on a line of its own: a name that is not empty and has no comma and no end of a line,
an id, and a number for the flag, of which zero says that the peer is not connected. -/
structure Line where
  entry : Entry
  flag : Int
  ending : Ending
  name_ne : entry.name ≠ ""
  name_clean : ∀ c ∈ entry.name.toList, c ≠ ',' ∧ c ≠ '\r' ∧ c ≠ '\n'
  id_writable : Numeral.IsWritable entry.id
  flag_writable : Numeral.IsWritable flag
  connected : entry.connected = decide (flag ≠ 0)

/-- The ends of lines behind a line are not read. -/
theorem Entry.read?_append {ends : List Char} (h : ∀ c ∈ ends, isLineEnd c) (line : List Char) :
    read? (line ++ ends) = read? line := by
  rw [read?, trimOf_append h]
  rfl

namespace Line

/-- The line without its end. -/
def text (l : Line) : List Char :=
  l.entry.name.toList ++ ',' :: (toString l.entry.id).toList ++ ',' :: (toString l.flag).toList

/-- The line with its end. -/
def written (l : Line) : List Char := l.text ++ l.ending.lead ++ ['\n']

/-- The line as one with any flag. -/
def listed (l : Line) : Listed where
  name := l.entry.name
  id := l.entry.id
  flag := toString l.flag
  name_ne := l.name_ne
  name_clean := l.name_clean
  id_writable := l.id_writable
  flag_line := Listed.id_notMem (by decide) (by decide) l.flag

private theorem isLineEnd_of_mem_toString {n : Int} {c : Char} (hc : c ∈ (toString n).toList) :
    Entry.isLineEnd c = false := by
  rw [Entry.isLineEnd, Bool.or_eq_false_iff, decide_eq_false_iff_not, decide_eq_false_iff_not]
  exact ⟨fun hcr ↦ Listed.id_notMem (by decide) (by decide) n (hcr ▸ hc),
    fun hlf ↦ Listed.id_notMem (by decide) (by decide) n (hlf ▸ hc)⟩

/-- A number has no end of a line that could be taken off it. -/
theorem trimmedFlag_listed (l : Line) : l.listed.trimmedFlag = (toString l.flag).toList := by
  show ((toString l.flag).toList.reverse.dropWhile Entry.isLineEnd).reverse = _
  rw [List.reverse_eq_iff]
  cases hflag : (toString l.flag).toList.reverse with
  | nil => rfl
  | cons c rest =>
    have hc : c ∈ (toString l.flag).toList := List.mem_reverse.1 (hflag ▸ List.mem_cons_self)
    rw [List.dropWhile_cons_of_neg (by simp [isLineEnd_of_mem_toString hc])]

private theorem entry_listed (l : Line) : l.listed.entry = l.entry := by
  have hcomma : ',' ∉ (toString l.flag).toList := Listed.id_notMem (by decide) (by decide) l.flag
  rw [Listed.entry, l.trimmedFlag_listed, splitOn_of_notMem hcomma, Entry.flagOf,
    Numeral.integer?_toString l.flag_writable, Option.any_some, ← l.connected]
  rfl

private theorem read?_text (l : Line) : Entry.read? l.text = some l.entry := by
  rw [← l.entry_listed]
  exact l.listed.read?_text

private theorem isLineEnd_of_mem_lead {e : Ending} : ∀ c ∈ e.lead, Entry.isLineEnd c := by
  cases e <;> simp [Ending.lead, Entry.isLineEnd]

private theorem read?_lead (l : Line) : Entry.read? (l.text ++ l.ending.lead) = some l.entry := by
  rw [Entry.read?_append isLineEnd_of_mem_lead, l.read?_text]

private theorem read?_written (l : Line) : Entry.read? l.written = some l.entry := by
  rw [written, Entry.read?_append (List.forall_mem_singleton.2 (by decide)), l.read?_lead]

private theorem lf_notMem_lead (l : Line) : '\n' ∉ l.text ++ l.ending.lead := by
  rw [List.mem_append, not_or]
  refine ⟨l.listed.lf_notMem_text, ?_⟩
  cases l.ending <;> decide

end Line

/-- A listing reads back as the entries that were written, in order, whatever names they have and
however their lines end, and whatever begins of a further line behind them. A line alone reads as
its entry, with its end or without. -/
theorem readListing_of_written (lines : List Line) {tail : Bytes} (htail : Bytes.lf ∉ tail) :
    readListing (Utf8.encode (lines.flatMap Line.written) ++ tail) = lines.map Line.entry ∧
    ∀ l : Line, Entry.read? l.text = some l.entry ∧ Entry.read? l.written = some l.entry := by
  refine ⟨?_, fun l ↦ ⟨l.read?_text, l.read?_written⟩⟩
  have hclean : ∀ piece ∈ lines.map fun l ↦ l.text ++ l.ending.lead, '\n' ∉ piece :=
    List.forall_mem_map.2 fun l _ ↦ l.lf_notMem_lead
  have hpieces : splitOn '\n' (lines.flatMap Line.written ++ Utf8.decodeLossy tail) =
      (lines.map fun l ↦ l.text ++ l.ending.lead) ++ [Utf8.decodeLossy tail] := by
    rw [← splitOn_of_notMem (Utf8.lf_notMem_decodeLossy htail),
      ← splitOn_flatMap_append hclean, List.flatMap_map]
    rfl
  have hread : (Entry.read? ∘ fun l : Line ↦ l.text ++ l.ending.lead) = some ∘ Line.entry := by
    funext l
    rw [Function.comp_apply, Function.comp_apply, l.read?_lead]
  rw [readListing, Utf8.decodeLossy_encode_append, hpieces, List.dropLast_concat,
    List.filterMap_map, hread, List.filterMap_eq_map]

/-- A peer that is connected, with blanks around its name. -/
def spacedLine : Line where
  entry := ⟨" ü\t", -12, true⟩
  flag := 7
  ending := .crlf
  name_ne := by decide
  name_clean := by simp
  id_writable := Numeral.isWritable_of_lt (k := 2) (by decide) (by decide)
  flag_writable := Numeral.isWritable_of_lt (k := 1) (by decide) (by decide)
  connected := rfl

/-- A peer that left, by the name of a number. -/
def numberLine : Line where
  entry := ⟨"7;1", 0, false⟩
  flag := 0
  ending := .lf
  name_ne := by decide
  name_clean := by simp
  id_writable := Numeral.isWritable_of_lt (k := 1) (by decide) (by decide)
  flag_writable := Numeral.isWritable_of_lt (k := 1) (by decide) (by decide)
  connected := rfl

/-- Bytes that are no text, at the beginning of a line. -/
def tornLine : Bytes := [0xFF, 44, 0xE2, 0x82]

/-- Two lines, with the first bytes of a further one behind them. -/
theorem readListing_of_written_mixed :
    Bytes.lf ∉ tornLine ∧
    readListing (Utf8.encode " ü\t,-12,7\r\n7;1,0,0\n".toList ++ tornLine) =
      [⟨" ü\t", -12, true⟩, ⟨"7;1", 0, false⟩] := by
  have htail : Bytes.lf ∉ tornLine := by decide
  have htext : [spacedLine, numberLine].flatMap Line.written =
      " ü\t,-12,7\r\n7;1,0,0\n".toList := by decide +kernel
  have hread := (readListing_of_written [spacedLine, numberLine] htail).1
  rw [htext] at hread
  exact ⟨htail, hread⟩

end Rendezvous.Peer
