import Mathlib.Logic.Relation
import Rendezvous.Config.File
import Rendezvous.Proofs.Text.Blank
import Rendezvous.Proofs.Text.Split
import Rendezvous.Proofs.Text.Utf8

/-!
# What a settings file means

A file written as one line of key and value for each assignment carries the assignments out, one
after another. How a file is written does not matter: idle lines may stand anywhere, blanks may
surround keys, values and lines, a comment may follow a value, and lines with different keys may
change places.
-/

namespace Rendezvous.Config

open Text

/-! ### Lines -/

section Lines

variable {line line' key key' value front back : List Char}

/-- Whether a text is of blanks alone. -/
def IsSpace (s : List Char) : Prop := ∀ c ∈ s, isBlank c = true

instance (s : List Char) : Decidable (IsSpace s) :=
  decidable_of_iff (s.all isBlank = true) List.all_eq_true

private theorem IsSpace.notMem {c : Char} (h : IsSpace front) (hc : isBlank c = false) :
    c ∉ front :=
  fun hmem ↦ by simp [h c hmem] at hc

private theorem notMem_surround {c : Char} (hc : isBlank c = false) (hfront : IsSpace front)
    (hback : IsSpace back) (h : c ∉ value) : c ∉ front ++ value ++ back := by
  simp [hfront.notMem hc, hback.notMem hc, h]

/-- What stands before a number sign ends where the number sign stands. -/
theorem takeWhile_append_comment {comment : List Char}
    (h : comment = [] ∨ comment.head? = some '#') (value : List Char) :
    (value ++ comment).takeWhile (· ≠ '#') = value.takeWhile (· ≠ '#') := by
  have hcomment : comment.takeWhile (· ≠ '#') = [] := by
    rcases h with rfl | h
    · rfl
    · obtain ⟨rest, rfl⟩ := List.head?_eq_some_iff.1 h
      simp
  rw [List.takeWhile_append, hcomment]
  split
  · next hall => rw [List.append_nil, (List.takeWhile_prefix (· ≠ '#')).eq_of_length hall]
  · rfl

/-- What stands before a number sign, of a text that loses the blanks behind it. -/
theorem trim_takeWhile_rdropWhile (value : List Char) :
    trim ((value.rdropWhile isBlank).takeWhile (· ≠ '#')) = trim (value.takeWhile (· ≠ '#')) := by
  have hblank : ∀ c ∈ value.rtakeWhile isBlank, isBlank c = true := fun c ↦
    List.mem_rtakeWhile_imp
  have hends : (value.rtakeWhile isBlank).takeWhile (· ≠ '#') = value.rtakeWhile isBlank :=
    List.takeWhile_eq_self_iff.2 fun c hc ↦ decide_eq_true fun heq ↦
      IsSpace.notMem hblank (by decide) (heq ▸ hc)
  conv_rhs => rw [← List.rdropWhile_append_rtakeWhile (p := isBlank) (l := value)]
  rw [List.takeWhile_append, hends]
  split
  · next hall =>
    rw [trim, trim, trimOf_append hblank,
      (List.takeWhile_prefix (· ≠ '#')).eq_of_length hall]
  · rfl

/-- The assignment of a line, read off what stands before its first colon and behind it. -/
theorem assignment?_append_cons (h : ':' ∉ key) (value : List Char) :
    assignment? (key ++ ':' :: value) =
      if (trim key).head? = some '#' then none
      else some (.ofList (trim key), .ofList (trim (value.takeWhile (· ≠ '#')))) := by
  have htrim : trim (key ++ ':' :: value) =
      key.dropWhile isBlank ++ ':' :: value.rdropWhile isBlank :=
    trimOf_append_cons (by decide) key value
  have hkey : ':' ∉ key.dropWhile isBlank := fun hc ↦ h (List.dropWhile_subset isBlank hc)
  have hhead : (key.dropWhile isBlank ++ ':' :: value.rdropWhile isBlank).head? = some '#' ↔
      (trim key).head? = some '#' := by
    rw [trim, head?_trimOf]
    cases key.dropWhile isBlank <;> simp
  have hinner : trim (key.dropWhile isBlank) = trim key := trimOf_dropWhile key
  simp only [assignment?, htrim, hhead, cutAt_append_cons hkey, Option.map_some,
    trim_takeWhile_rdropWhile, hinner]

private theorem assignment?_of_notMem (h : ':' ∉ line) : assignment? line = none := by
  have hline : ':' ∉ trim line := fun hc ↦
    h (List.dropWhile_subset isBlank
      (List.mem_reverse.1 (List.dropWhile_subset isBlank (List.mem_reverse.1 hc))))
  have hcut : cutAt ':' (trim line) = none := by
    have hdrop : (trim line).dropWhile (· ≠ ':') = [] :=
      List.dropWhile_eq_nil_iff.2 fun c hc ↦ decide_eq_true fun heq ↦ hline (heq ▸ hc)
    rw [cutAt, hdrop]
  simp [assignment?, hcut]

private theorem assignment?_surround (hfront : IsSpace front) (hback : IsSpace back)
    (line : List Char) :
    assignment? (front ++ line ++ back) = assignment? line := by
  have htrim : trim (front ++ line ++ back) = trim line := trimOf_surround hfront hback line
  simp only [assignment?, htrim]

private theorem assignment?_comment (h : IsSpace front) (rest : List Char) :
    assignment? (front ++ '#' :: rest) = none := by
  have htrim : trim (front ++ '#' :: rest) = '#' :: rest.rdropWhile isBlank := by
    have hfront : (front ++ []).dropWhile isBlank = [] := List.dropWhile_append_of_pos h
    rw [List.append_nil] at hfront
    rw [trim, trimOf_append_cons (by decide), hfront, List.nil_append]
  simp [assignment?, htrim]

end Lines

/-! ### The last assignment of a key -/

section Last

/-- Of two steps that may fail, the second goes by what the first gives. -/
theorem bind_eq_ok {ε α β : Type} {x : Except ε α} {f : α → Except ε β} {b : β} :
    x >>= f = .ok b ↔ ∃ a, x = .ok a ∧ f a = .ok b := by
  cases x with
  | error e => exact ⟨nofun, nofun⟩
  | ok a => exact ⟨fun h ↦ ⟨a, rfl, h⟩, fun ⟨_, rfl, h⟩ ↦ h⟩

variable {base : Config} {assigned assigned' : List Assignment}

/-- The keys that a settings file may assign. -/
def keys : List String :=
  ["server_ip", "server_port", "client_name", "reconnect_delay", "log_level"]

private theorem lastOf_append (front back : List Assignment) (key : String) :
    lastOf (front ++ back) key = (lastOf back key).or (lastOf front key) := by
  rw [lastOf, List.reverse_append, List.lookup_append, ← lastOf, ← lastOf]

private theorem lastOf_singleton (a : Assignment) (key : String) :
    lastOf [a] key = if a.1 = key then some a.2 else none := by
  rw [lastOf, List.reverse_singleton, List.lookup_cons]
  by_cases h : a.1 = key
  · simp [h]
  · simp [h, beq_false_of_ne (Ne.symm h)]

/-- Of the assignments of a file only the last one of each key counts. -/
theorem overlay_congr (h : ∀ key ∈ keys, lastOf assigned key = lastOf assigned' key) :
    base.overlay assigned = base.overlay assigned' := by
  simp only [keys, List.forall_mem_cons] at h
  obtain ⟨hserver, hport, hname, hdelay, hlevel, -⟩ := h
  simp only [overlay, hserver, hport, hname, hdelay, hlevel]

/-- The settings that assignments give: both numbers are read, and texts are taken as they are. -/
theorem overlay_eq_ok {c : Config} :
    base.overlay assigned = .ok c ↔ ∃ port delay,
      readOr readPort (lastOf assigned "server_port") base.port = .ok port ∧
      readOr readDelay (lastOf assigned "reconnect_delay") base.reconnectDelay = .ok delay ∧
      { base with
        server := (lastOf assigned "server_ip").getD base.server
        port
        clientName := (lastOf assigned "client_name").getD base.clientName
        reconnectDelay := delay
        logLevel := lastOf assigned "log_level" <|> base.logLevel } = c := by
  simp only [overlay, bind_eq_ok, pure, Except.pure, Except.ok.injEq, exists_and_left]

end Last

/-! ### Settings one after another -/

/-- A setting as a file may give it. A number comes with the text that it is read from. -/
inductive Setting where
  | server (host : String)
  | port (text : String) (port : Int) (h : readPort text = .ok port)
  | clientName (name : String)
  | reconnectDelay (text : String) (delay : Float) (h : readDelay text = .ok delay)
  | logLevel (level : String)

namespace Setting

/-- The key of a setting. -/
def key : Setting → String
  | server _ => "server_ip"
  | port _ _ _ => "server_port"
  | clientName _ => "client_name"
  | reconnectDelay _ _ _ => "reconnect_delay"
  | logLevel _ => "log_level"

/-- The value of a setting as it is written. -/
def text : Setting → String
  | server host => host
  | port text _ _ => text
  | clientName name => name
  | reconnectDelay text _ _ => text
  | logLevel level => level

/-- The settings with one of them changed. -/
def set (base : Config) : Setting → Config
  | server host => { base with server := host }
  | port _ number _ => { base with port := number }
  | clientName name => { base with clientName := name }
  | reconnectDelay _ delay _ => { base with reconnectDelay := delay }
  | logLevel level => { base with logLevel := some level }

/-- The line of a setting. -/
def line (s : Setting) : List Char := s.key.toList ++ ':' :: ' ' :: s.text.toList

/-- Whether the value of a setting can be read back from its line: it stands on one line, has no
number sign, and no blanks at its ends. -/
structure IsPlain (s : Setting) : Prop where
  lf_notMem : '\n' ∉ s.text.toList
  cr_notMem : '\r' ∉ s.text.toList
  numberSign_notMem : '#' ∉ s.text.toList
  trim_eq : trim s.text.toList = s.text.toList

variable {s : Setting} {given : List Setting}

/-- A setting that is assigned last is the one that counts; the others stay. -/
theorem overlay_concat {base c : Config} {assigned : List Assignment}
    (h : base.overlay assigned = .ok c) (s : Setting) :
    base.overlay (assigned ++ [(s.key, s.text)]) = .ok (s.set c) := by
  obtain ⟨number, delay, hport, hdelay, rfl⟩ := overlay_eq_ok.1 h
  simp only [overlay_eq_ok, lastOf_append, lastOf_singleton]
  cases s with
  | server host => exact ⟨number, delay, hport, hdelay, rfl⟩
  | port text n hn => exact ⟨n, delay, hn, hdelay, rfl⟩
  | clientName name => exact ⟨number, delay, hport, hdelay, rfl⟩
  | reconnectDelay text seconds hs => exact ⟨number, seconds, hport, hs, rfl⟩
  | logLevel level => exact ⟨number, delay, hport, hdelay, rfl⟩

private theorem overlay_settings (base : Config) (given : List Setting) :
    base.overlay (given.map fun s ↦ (s.key, s.text)) = .ok (given.foldl set base) := by
  induction given using List.reverseRecOn with
  | nil => rfl
  | append_singleton front s ih =>
    rw [List.map_append, List.map_singleton, overlay_concat ih, List.foldl_concat]

private theorem key_mem (s : Setting) : s.key ∈ keys := by
  cases s <;> simp [key, keys]

/-- A character that is in no key, and is neither the colon nor the space, is in a line just when
it is in the value. -/
theorem notMem_line {c : Char} (hkeys : ∀ key ∈ keys, c ∉ key.toList) (hcolon : c ≠ ':')
    (hspace : c ≠ ' ') (h : c ∉ s.text.toList) : c ∉ s.line := by
  simp [line, hkeys _ s.key_mem, hcolon, hspace, h]

/-- A line is read as what it was written for. -/
theorem IsPlain.assignment?_line (h : s.IsPlain) : assignment? s.line = some (s.key, s.text) := by
  have hvalue : trim ((' ' :: s.text.toList).takeWhile (· ≠ '#')) = s.text.toList := by
    have hall : (' ' :: s.text.toList).takeWhile (· ≠ '#') = [' '] ++ s.text.toList ++ [] := by
      rw [List.append_nil]
      refine List.takeWhile_eq_self_iff.2 fun c hc ↦ decide_eq_true ?_
      rintro rfl
      exact absurd hc (by simp [h.numberSign_notMem])
    have hspace : IsSpace [' '] := by decide
    rw [hall, trim, trimOf_surround hspace (List.forall_mem_nil _), ← trim, h.trim_eq]
  have hkey : ∀ key ∈ keys, ':' ∉ key.toList ∧ trim key.toList = key.toList ∧
      key.toList.head? ≠ some '#' := by decide
  obtain ⟨hcolon, htrim, hfirst⟩ := hkey _ s.key_mem
  rw [line, assignment?_append_cons hcolon, hvalue, htrim, if_neg hfirst, String.ofList_toList,
    String.ofList_toList]

/-- The lines of a file with a line for each setting; nothing stands behind the last. -/
theorem fileLines_lines (h : ∀ s ∈ given, s.IsPlain) :
    fileLines (given.flatMap (·.line ++ ['\n'])) = given.map line ++ [[]] := by
  have hlines : given.flatMap (·.line ++ ['\n']) = (given.map line).flatMap (· ++ ['\n']) := by
    rw [List.flatMap_map]
  have hcr : ∀ c ∈ given.flatMap (·.line ++ ['\n']), (if c = '\r' then '\n' else c) = c := by
    intro c hc
    obtain ⟨s, hs, hc⟩ := List.mem_flatMap.1 hc
    refine if_neg ?_
    rintro rfl
    have hline := notMem_line (by decide) (by decide) (by decide) (h s hs).cr_notMem
    simp [hline] at hc
  have hlf : ∀ written ∈ given.map line, '\n' ∉ written := by
    intro written hwritten
    obtain ⟨s, hs, rfl⟩ := List.mem_map.1 hwritten
    exact notMem_line (by decide) (by decide) (by decide) (h s hs).lf_notMem
  rw [fileLines, List.map_congr_left hcr, List.map_id', hlines, splitOn_flatMap_concat hlf]

private theorem assignments_lines (h : ∀ s ∈ given, s.IsPlain) :
    assignments (given.flatMap (·.line ++ ['\n'])) = given.map fun s ↦ (s.key, s.text) := by
  have hlines : given.filterMap (assignment? ∘ line) =
      given.filterMap (some ∘ fun s ↦ (s.key, s.text)) :=
    List.filterMap_congr fun s hs ↦ (h s hs).assignment?_line
  have hlast : [[]].filterMap assignment? = [] := rfl
  rw [assignments, fileLines_lines h, List.filterMap_append, List.filterMap_map, hlines, hlast,
    List.append_nil, List.filterMap_eq_map]

end Setting

/-! ### Edits -/

variable {lines lines' : List (List Char)}

/-- A line that assigns nothing: it is blank, a number sign stands first in it, it has no colon,
or its key is not known. -/
inductive IsIdle : List Char → Prop where
  | blank {line : List Char} (h : IsSpace line) : IsIdle line
  | comment {front : List Char} (h : IsSpace front) (rest : List Char) :
      IsIdle (front ++ '#' :: rest)
  | bare {line : List Char} (h : ':' ∉ line) : IsIdle line
  | unknown {key : List Char} (h : ':' ∉ key) (hkey : String.ofList (trim key) ∉ keys)
      (value : List Char) : IsIdle (key ++ ':' :: value)

/-- A line spelled in another way: with blanks around the line, around its key or around its value,
or with a comment behind its value. -/
inductive Respelling : List Char → List Char → Prop where
  | line {front back : List Char} (hfront : IsSpace front) (hback : IsSpace back)
      (line : List Char) : Respelling line (front ++ line ++ back)
  | key {front back key : List Char} (hfront : IsSpace front) (hback : IsSpace back)
      (h : ':' ∉ key) (value : List Char) :
      Respelling (key ++ ':' :: value) (front ++ key ++ back ++ ':' :: value)
  | value {front back key value comment : List Char} (hfront : IsSpace front)
      (hback : IsSpace back) (h : ':' ∉ key) (hvalue : '#' ∉ value)
      (hcomment : comment = [] ∨ comment.head? = some '#') :
      Respelling (key ++ ':' :: (value ++ comment))
        (key ++ ':' :: (front ++ value ++ back ++ comment))
  | comment {key : List Char} (h : ':' ∉ key) (value comment : List Char) :
      Respelling (key ++ ':' :: value) (key ++ ':' :: value ++ '#' :: comment)

/-- An edit of a file that leaves alone what it means: an idle line is put in, a line is spelled in
another way, or two lines with different keys, one right behind the other, change places. -/
inductive Edit : List (List Char) → List (List Char) → Prop where
  | insert {line : List Char} (h : IsIdle line) (before behind : List (List Char)) :
      Edit (before ++ behind) (before ++ line :: behind)
  | respell {line line' : List Char} (h : Respelling line line')
      (before behind : List (List Char)) :
      Edit (before ++ line :: behind) (before ++ line' :: behind)
  | swap {key key' : List Char} (h : ':' ∉ key) (h' : ':' ∉ key') (hne : trim key ≠ trim key')
      (value value' : List Char) (before behind : List (List Char)) :
      Edit (before ++ (key ++ ':' :: value) :: (key' ++ ':' :: value') :: behind)
        (before ++ (key' ++ ':' :: value') :: (key ++ ':' :: value) :: behind)

/-- A line says nothing of any key but its own. -/
theorem lastOf_of_ne {key : List Char} (h : ':' ∉ key) (value : List Char) {other : String}
    (hne : String.ofList (trim key) ≠ other) :
    lastOf (assignment? (key ++ ':' :: value)).toList other = none := by
  rw [assignment?_append_cons h]
  split
  · rfl
  · rw [Option.toList_some, lastOf_singleton, if_neg hne]

/-- An idle line assigns no key that is known. -/
theorem IsIdle.lastOf_eq {line : List Char} (h : IsIdle line) {key : String} (hkey : key ∈ keys) :
    lastOf (assignment? line).toList key = none := by
  have hnone : assignment? line = none → lastOf (assignment? line).toList key = none := by
    intro hline
    rw [hline]
    rfl
  cases h with
  | blank h =>
    exact hnone (assignment?_of_notMem fun hc ↦ absurd (h _ hc) (by decide))
  | comment h rest => exact hnone (assignment?_comment h rest)
  | bare h => exact hnone (assignment?_of_notMem h)
  | unknown h hunknown value =>
    exact lastOf_of_ne h value fun heq ↦ hunknown (heq ▸ hkey)

private theorem Respelling.assignment?_eq {line line' : List Char} (h : Respelling line line') :
    assignment? line = assignment? line' := by
  cases h with
  | line hfront hback => exact (assignment?_surround hfront hback line).symm
  | @key front back key hfront hback h value =>
    have hcolon : ':' ∉ front ++ key ++ back := notMem_surround (by decide) hfront hback h
    have htrim : trim (front ++ key ++ back) = trim key := trimOf_surround hfront hback key
    rw [assignment?_append_cons h, assignment?_append_cons hcolon, htrim]
  | @value front back key value comment hfront hback h hvalue hcomment =>
    have hsplit : ∀ {text : List Char}, '#' ∉ text →
        (text ++ comment).takeWhile (· ≠ '#') = text := by
      intro text htext
      rw [takeWhile_append_comment hcomment]
      exact List.takeWhile_eq_self_iff.2 fun c hc ↦ decide_eq_true fun heq ↦ htext (heq ▸ hc)
    have hspaced : '#' ∉ front ++ value ++ back := notMem_surround (by decide) hfront hback hvalue
    have htrim : trim (front ++ value ++ back) = trim value := trimOf_surround hfront hback value
    rw [assignment?_append_cons h, assignment?_append_cons h, hsplit hvalue, hsplit hspaced, htrim]
  | @comment key h value comment =>
    rw [List.append_assoc, List.cons_append, assignment?_append_cons h, assignment?_append_cons h,
      takeWhile_append_comment (.inr rfl)]

private theorem lastOf_cons (line : List Char) (behind : List (List Char)) (key : String) :
    lastOf ((line :: behind).filterMap assignment?) key =
      (lastOf (behind.filterMap assignment?) key).or (lastOf (assignment? line).toList key) := by
  rw [← lastOf_append]
  congr 1
  cases h : assignment? line <;> simp [h]

/-- No edit changes what is assigned last to a known key. -/
theorem Edit.lastOf_eq (h : Edit lines lines') {key : String} (hkey : key ∈ keys) :
    lastOf (lines.filterMap assignment?) key = lastOf (lines'.filterMap assignment?) key := by
  cases h with
  | insert h before behind =>
    simp only [List.filterMap_append, lastOf_append, lastOf_cons, h.lastOf_eq hkey, Option.or_none]
  | respell h before behind =>
    simp only [List.filterMap_append, lastOf_append, lastOf_cons, h.assignment?_eq]
  | @swap first second h h' hne value value' before behind =>
    simp only [List.filterMap_append, lastOf_append, lastOf_cons]
    -- One of the two lines does not have the key.
    by_cases hfirst : String.ofList (trim first) = key
    · have hsecond : String.ofList (trim second) ≠ key := fun heq ↦
        hne (String.ofList_injective (hfirst.trans heq.symm))
      rw [lastOf_of_ne h' value' hsecond, Option.or_none, Option.or_none]
    · rw [lastOf_of_ne h value hfirst, Option.or_none, Option.or_none]

private theorem lastOf_eq_of_eqvGen (h : Relation.EqvGen Edit lines lines') {key : String}
    (hkey : key ∈ keys) :
    lastOf (lines.filterMap assignment?) key = lastOf (lines'.filterMap assignment?) key := by
  induction h with
  | rel _ _ h => exact h.lastOf_eq hkey
  | refl _ => rfl
  | symm _ _ _ ih => exact ih.symm
  | trans _ _ _ _ _ ih ih' => exact ih.trans ih'

/-! ### Files -/

/-- A file that holds a text is read as that text. -/
theorem withFile_encode (base : Config) (text : List Char) :
    base.withFile (Utf8.encode text) = base.overlay (assignments text) := by
  have hflaw : Utf8.flaw? (Utf8.encode text) = none := by
    rw [Utf8.flaw?_eq_none_iff, Utf8.decode?_encode]
    rfl
  rw [withFile, fileText, hflaw, Utf8.decodeLossy_encode]
  rfl

/-- A file with a line for each of some settings sets them one after another, so that of each the
last counts and everything else stays. And a file of any text means what it means after any number
of edits, forth and back: an idle line may be put in, a line may be spelled in another way, and
neighbouring lines with different keys may change places. -/
theorem withFile_eq_of_edits :
    (∀ (base : Config) (given : List Setting), (∀ s ∈ given, s.IsPlain) →
      base.withFile (Utf8.encode (given.flatMap (·.line ++ ['\n']))) =
        .ok (given.foldl Setting.set base)) ∧
    ∀ (base : Config) (text text' : List Char),
      Relation.EqvGen Edit (fileLines text) (fileLines text') →
      base.withFile (Utf8.encode text) = base.withFile (Utf8.encode text') := by
  constructor
  · intro base given h
    rw [withFile_encode, Setting.assignments_lines h, Setting.overlay_settings]
  · intro base text text' h
    rw [withFile_encode, withFile_encode]
    exact overlay_congr fun key hkey ↦ lastOf_eq_of_eqvGen h hkey

/-- The same settings twice: line by line, and behind a comment, with other blanks and in another
order. -/
theorem withFile_two_spellings :
    (standard "me").withFile (Utf8.encode
        "server_ip: ::1\nserver_port: 8889\nserver_ip: 10.0.0.2\n".toList) =
      .ok { standard "me" with server := "10.0.0.2", port := 8889 } ∧
    (standard "me").withFile (Utf8.encode "log_level: DEBUG\nserver_ip: ::1".toList) =
      (standard "me").withFile (Utf8.encode
        "# a: b\n  server_ip : ::1 # here\nlog_level: DEBUG".toList) := by
  constructor
  · have hplain : ∀ text : String, '\n' ∉ text.toList ∧ '\r' ∉ text.toList ∧ '#' ∉ text.toList ∧
        trim text.toList = text.toList → ∀ s : Setting, s.text = text → s.IsPlain := by
      rintro text ⟨hlf, hcr, hsign, htrim⟩ s rfl
      exact ⟨hlf, hcr, hsign, htrim⟩
    refine (congrArg ((standard "me").withFile ∘ Utf8.encode) (by decide)).trans
      (withFile_eq_of_edits.1 (standard "me")
        [.server "::1", .port "8889" 8889 rfl, .server "10.0.0.2"] ?_)
    simp only [List.forall_mem_cons]
    exact ⟨hplain "::1" (by decide) _ rfl, hplain "8889" (by decide) _ rfl,
      hplain "10.0.0.2" (by decide) _ rfl, List.forall_mem_nil _⟩
  · refine withFile_eq_of_edits.2 (standard "me") _ _ ?_
    have hswap : Edit ["log_level: DEBUG".toList, "server_ip: ::1".toList]
        ["server_ip: ::1".toList, "log_level: DEBUG".toList] :=
      @Edit.swap "log_level".toList "server_ip".toList (by decide) (by decide) (by decide)
        " DEBUG".toList " ::1".toList [] []
    have hline : Edit ["server_ip: ::1".toList, "log_level: DEBUG".toList]
        ["  server_ip: ::1 ".toList, "log_level: DEBUG".toList] :=
      .respell (@Respelling.line "  ".toList " ".toList (by decide) (by decide) _) [] _
    have hkey : Edit ["  server_ip: ::1 ".toList, "log_level: DEBUG".toList]
        ["  server_ip : ::1 ".toList, "log_level: DEBUG".toList] :=
      .respell (@Respelling.key [] " ".toList "  server_ip".toList (by decide) (by decide)
        (by decide) " ::1 ".toList) [] _
    have hcomment : Edit ["  server_ip : ::1 ".toList, "log_level: DEBUG".toList]
        ["  server_ip : ::1 # here".toList, "log_level: DEBUG".toList] :=
      .respell (@Respelling.comment "  server_ip ".toList (by decide) " ::1 ".toList
        " here".toList) [] _
    have hinsert : Edit ["  server_ip : ::1 # here".toList, "log_level: DEBUG".toList]
        ["# a: b".toList, "  server_ip : ::1 # here".toList, "log_level: DEBUG".toList] :=
      .insert (@IsIdle.comment [] (by decide) " a: b".toList) [] _
    exact .trans _ _ _ (.rel _ _ hswap) <| .trans _ _ _ (.rel _ _ hline) <|
      .trans _ _ _ (.rel _ _ hkey) <| .trans _ _ _ (.rel _ _ hcomment) (.rel _ _ hinsert)

end Rendezvous.Config
