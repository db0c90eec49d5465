import Rendezvous.Peer.Directory
import Rendezvous.Proofs.Numeral
import Rendezvous.Proofs.Text.Split
import Rendezvous.Proofs.Text.Utf8
import Rendezvous.Proofs.Wire.Written

/-!
# Listings as they are written

A listing is written line by line, and reads as what its lines say, in order. A directory that takes
it over knows everybody in it but its owner, by the last name that stands there.
-/

namespace Rendezvous.Peer

open Text

/-- A line of a listing as the server writes it: a name without commas and line ends, an id, and a
flag, which may be anything that does not end the line. -/
structure Listed where
  name : String
  id : Int
  flag : String
  name_ne : name ≠ ""
  name_clean : ∀ c ∈ name.toList, c ≠ ',' ∧ c ≠ '\r' ∧ c ≠ '\n'
  id_writable : Numeral.IsWritable id
  flag_line : '\n' ∉ flag.toList

namespace Listed

def text (l : Listed) : List Char :=
  l.name.toList ++ ',' :: (toString l.id).toList ++ ',' :: l.flag.toList

/-- The flag without the line ends behind it. -/
def trimmedFlag (l : Listed) : List Char :=
  (l.flag.toList.reverse.dropWhile Entry.isLineEnd).reverse

/-- What a line says. -/
def entry (l : Listed) : Entry := ⟨l.name, l.id, Entry.flagOf (splitOn ',' l.trimmedFlag)⟩

/-- The bytes of a listing: each line with a line feed behind it. -/
def encode (lines : List Listed) : Bytes := Utf8.encode (lines.flatMap (·.text ++ ['\n']))

/-- An id is written with digits and a sign only. -/
theorem id_notMem {c : Char} (hsign : c ≠ '-') (hdigit : c.isDigit = false) (id : Int) :
    c ∉ (toString id).toList := fun hc ↦
  (Numeral.mem_toString hc).elim hsign fun h ↦ by simp [hdigit] at h

/-- A line of a listing has no line end in it. -/
theorem lf_notMem_text (l : Listed) : '\n' ∉ l.text := by
  simp only [text, List.mem_append, List.mem_cons, not_or]
  refine ⟨⟨fun h ↦ (l.name_clean _ h).2.2 rfl, by decide, ?_⟩, by decide, l.flag_line⟩
  exact id_notMem (by decide) (by decide) l.id

/-- The line ends around a line touch only its flag. -/
theorem trimOf_text (l : Listed) : trimOf Entry.isLineEnd l.text =
    l.name.toList ++ ',' :: ((toString l.id).toList ++ ',' :: l.trimmedFlag) := by
  have hfirst : l.text.dropWhile Entry.isLineEnd = l.text := by
    have hne := mt String.toList_eq_nil_iff.1 l.name_ne
    obtain ⟨c, rest, hname⟩ := List.exists_cons_of_ne_nil hne
    have hclean := l.name_clean c (hname ▸ List.mem_cons_self)
    rw [text, hname]
    simp [Entry.isLineEnd, hclean.2.1, hclean.2.2]
  -- from behind, the comma before the flag is the first character that is sure to stay
  have hlast (front flag : List Char) :
      (flag ++ ',' :: front).dropWhile Entry.isLineEnd =
        flag.dropWhile Entry.isLineEnd ++ ',' :: front := by
    have hcomma : (',' :: front).dropWhile Entry.isLineEnd = ',' :: front := by
      simp [Entry.isLineEnd]
    rw [List.dropWhile_append, hcomma]
    split
    · next hempty => rw [List.isEmpty_iff.1 hempty, List.nil_append]
    · rfl
  rw [trimOf, hfirst, text, List.reverse_append, List.reverse_cons, List.append_assoc,
    List.singleton_append, hlast]
  simp [trimmedFlag]

/-- A line that is written reads as its entry. -/
theorem read?_text (l : Listed) : Entry.read? l.text = some l.entry := by
  have hname : ',' ∉ l.name.toList := fun h ↦ (l.name_clean _ h).1 rfl
  have hid : ',' ∉ (toString l.id).toList := id_notMem (by decide) (by decide) l.id
  have hne : l.name.toList.isEmpty = false := by simpa using l.name_ne
  rw [Entry.read?, l.trimOf_text, splitOn_append_cons hname, splitOn_append_cons hid]
  simp only [hne, Numeral.integer?_toString l.id_writable, Option.map_some, String.ofList_toList]
  rfl

/-- A listing that was written reads as what its lines say. -/
theorem readListing_encode (lines : List Listed) :
    readListing (encode lines) = lines.map entry := by
  have hpieces : splitOn '\n' (lines.flatMap (·.text ++ ['\n'])) = lines.map text ++ [[]] := by
    have hclean : ∀ piece ∈ lines.map text, '\n' ∉ piece :=
      List.forall_mem_map.2 fun l _ ↦ l.lf_notMem_text
    rw [← splitOn_flatMap_concat hclean, List.flatMap_map]
  rw [readListing, encode, Utf8.decodeLossy_encode, hpieces, List.dropLast_concat,
    List.filterMap_map, ← List.filterMap_eq_map]
  exact congrArg (List.filterMap · lines) (funext read?_text)

end Listed

/-! ### Taking a listing over -/

/-- A listing as it is reported, entry by entry. -/
def Roster.store (peers : Roster) (listed : List Entry) : Roster :=
  listed.foldl (fun peers entry ↦ peers.insert entry.id entry.name) peers

/-- Taking entries over stores those that are reported, one after another. -/
theorem Directory.peers_addAll (d : Directory) (entries : List Entry) :
    (d.addAll entries).2.peers = d.peers.store (d.addAll entries).1 := by
  induction entries generalizing d with
  | nil => rfl
  | cons entry rest ih =>
    by_cases hown : entry.id = d.selfId
    · simpa [addAll, hown] using ih d
    · simpa [addAll, add_of_ne hown, Roster.store] using
        ih { d with peers := d.peers.insert entry.id entry.name }

/-- Whoever is stored of entries has the name of their last. -/
theorem Roster.getElem?_store (peers : Roster) (listed : List Entry) (id : Int) :
    (peers.store listed)[id]? =
      ((listed.findRev? (·.id = id)).map (·.name)).or peers[id]? :=
  Wire.getElem?_foldl_insert Entry.id Entry.name listed peers id

/-- A directory that takes a listing over has the last name of everybody in it but its owner. -/
theorem Directory.getElem?_rebuild (d : Directory) (entries : List Entry) (id : Int) :
    (d.rebuild entries).2.peers[id]? =
      if id = d.selfId then none else (entries.findRev? (·.id = id)).map (·.name) := by
  rw [rebuild, peers_addAll, fst_addAll, Roster.getElem?_store, Std.ExtTreeMap.getElem?_empty,
    Option.or_none, List.findRev?_eq_find?_reverse, List.findRev?_eq_find?_reverse,
    ← List.filter_reverse, List.find?_filter]
  split
  · next hown => simp [hown]
  · next hother =>
    congr 2
    funext entry
    by_cases hid : entry.id = id <;> simp [hid, hother]

end Rendezvous.Peer
