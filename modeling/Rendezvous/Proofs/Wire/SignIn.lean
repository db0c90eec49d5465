import Rendezvous.Proofs.Wire.Reader

/-!
# Signing in under any name

The name a client signs in under stands in the target of its request, percent-encoded. What is
written of a name has no byte that ends a line, parts it or parts a target, so the request has one
line of three parts whatever the name, and the name is read back from the second of them.
-/

namespace Rendezvous

open Text

namespace Bytes

private theorem ofAscii_append (a b : String) : ofAscii (a ++ b) = ofAscii a ++ ofAscii b := by
  rw [ofAscii, String.toList_append, List.map_append]
  rfl

/-- What a check finds of all bytes is true of each. -/
theorem forall_mem_of_all {P : UInt8 → Prop} [DecidablePred P] {bytes : Bytes}
    (h : bytes.all (fun b ↦ decide (P b)) = true) : ∀ b ∈ bytes, P b := by
  simpa using h

private theorem ofAscii_ofList_decode (bytes : Bytes) :
    ofAscii (String.ofList (Latin1.decode bytes)) = bytes := by
  have hbyte (b : UInt8) : UInt8.ofNat (Latin1.charOf b).toNat = b := by
    rw [Latin1.toNat_charOf, UInt8.ofNat_toNat]
  rw [ofAscii, String.toList_ofList, Latin1.decode, List.map_map]
  exact (List.map_congr_left fun b _ ↦ hbyte b).trans (List.map_id bytes)

end Bytes

namespace Text

/-- In a written form there are bytes that may stand for themselves, percent signs and digits. -/
theorem Percent.forall_mem_encode {allowed : UInt8 → Bool} {P : UInt8 → Prop}
    (hallowed : ∀ b, allowed b → P b) (hpercent : P 37) (hdigit : ∀ n < 16, P (hexDigit n))
    (bytes : Bytes) : ∀ b ∈ encode allowed bytes, P b := by
  intro b hb
  obtain ⟨source, -, hb⟩ := List.mem_flatMap.1 hb
  have hsource := source.toNat_lt
  rw [encodeByte] at hb
  split at hb
  · next h =>
    rw [List.mem_singleton.1 hb]
    exact hallowed source h
  · simp only [List.mem_cons, List.not_mem_nil, or_false] at hb
    rcases hb with rfl | rfl | rfl
    · exact hpercent
    · exact hdigit _ (by omega)
    · exact hdigit _ (by omega)

end Text

namespace Wire

/-- The bytes that end a line of a request, part it or part its target. -/
def separators : Bytes := Bytes.ofAscii "\r\n ?&#/"

/-- Whether a byte is ASCII and neither ends nor parts anything. -/
def IsPlain (b : UInt8) : Prop := b < 0x80 ∧ b ∉ separators

instance (b : UInt8) : Decidable (IsPlain b) := instDecidableAnd

namespace Request

private theorem isPlain_of_isAlphanumeric {b : UInt8} (h : Percent.isAlphanumeric b) :
    IsPlain b := by
  have hnone : ∀ b ∈ separators, Percent.isAlphanumeric b = false :=
    Bytes.forall_mem_of_all (by decide)
  refine ⟨?_, fun hb ↦ by simp [hnone b hb] at h⟩
  simp only [Percent.isAlphanumeric, Bool.or_eq_true, Bool.and_eq_true, decide_eq_true_eq,
    UInt8.le_iff_toNat_le, UInt8.lt_iff_toNat_lt, UInt8.reduceToNat] at h ⊢
  omega

private theorem isPlain_of_isNameByte {b : UInt8} (h : isNameByte b) : IsPlain b := by
  rw [isNameByte, Bool.or_eq_true, List.contains_iff_mem] at h
  rcases h with h | h
  · exact isPlain_of_isAlphanumeric h
  · have hmarks : ∀ b ∈ Bytes.ofAscii "@:+=!$'()*~._-", IsPlain b :=
      Bytes.forall_mem_of_all (by decide)
    exact hmarks b h

/-- What is written of a name. -/
def queryOf (name : String) : Bytes := Percent.encode isNameByte (Utf8.encode name.toList)

/-- A query is plain, byte by byte. -/
theorem isPlain_of_mem_queryOf {name : String} : ∀ b ∈ queryOf name, IsPlain b :=
  Percent.forall_mem_encode (fun _ ↦ isPlain_of_isNameByte) (by decide)
    (by decide) _

private theorem decode?_queryOf (name : String) :
    Utf8.decode? (Percent.decode (queryOf name)) = some name.toList := by
  rw [queryOf, Percent.decode_encode (by decide), Utf8.decode?_encode]

/-- The line of a request to sign in. -/
def signInLine (name : String) : Bytes :=
  Bytes.ofAscii "GET" ++ 32 :: (Bytes.ofAscii "/sign_in?" ++ queryOf name) ++
    32 :: Bytes.ofAscii "HTTP/1.0"

private theorem ofAscii_line_signIn (name : String) :
    Bytes.ofAscii (signIn name).line = signInLine name := by
  simp only [line, signIn, Bytes.ofAscii_append, Bytes.ofAscii_ofList_decode]
  rw [signInLine, List.append_assoc, List.append_assoc, List.append_assoc]
  rfl

private theorem encode_signIn (name : String) :
    (signIn name).encode = .ok (signInLine name ++ headEnd) := by
  have htarget : IsLatin (signIn name).target :=
    IsLatin.append (by decide) (isLatin_decode _)
  have hfields : (signIn name).fieldLines = [] := rfl
  have hbody : (signIn name).body = [] := rfl
  rw [encode_of_isLatin isLatin_get htarget (List.forall_mem_nil _), head_eq,
    ofAscii_line_signIn, hfields, hbody, List.map_nil, List.flatMap_nil, List.append_nil,
    List.append_nil]

/-- What is true of every plain byte and of the rest of the line is true throughout the line. -/
theorem forall_mem_signInLine {P : UInt8 → Prop} (hplain : ∀ b, IsPlain b → P b)
    (hrest : ∀ b ∈ Bytes.ofAscii "GET /sign_in? HTTP/1.0", P b) (name : String) :
    ∀ b ∈ signInLine name, P b := by
  have hparts : Bytes.ofAscii "GET /sign_in? HTTP/1.0" = Bytes.ofAscii "GET" ++
      32 :: Bytes.ofAscii "/sign_in?" ++ 32 :: Bytes.ofAscii "HTTP/1.0" := by decide
  simp only [hparts, List.forall_mem_append, List.forall_mem_cons] at hrest
  obtain ⟨⟨hmethod, hspace, hpath⟩, -, hversion⟩ := hrest
  simp only [signInLine, List.forall_mem_append, List.forall_mem_cons]
  exact ⟨⟨hmethod, hspace, hpath, fun b hb ↦ hplain b (isPlain_of_mem_queryOf b hb)⟩, hspace,
    hversion⟩

private theorem notMem_signInLine {b : UInt8} (hb : b ∈ Bytes.crlf) (name : String) :
    b ∉ signInLine name := fun h ↦
  forall_mem_signInLine (P := (· ∉ Bytes.crlf)) (fun _ hplain hend ↦
    hplain.2 (List.mem_append_left (Bytes.ofAscii " ?&#/") hend))
    (Bytes.forall_mem_of_all (by decide)) name b h hb

private theorem isAscii_signInLine (name : String) : ∀ b ∈ signInLine name, b < 0x80 :=
  forall_mem_signInLine (fun _ ↦ And.left) (Bytes.forall_mem_of_all (by decide)) name

private theorem splitOn_signInLine (name : String) : splitOn 32 (signInLine name) =
    [Bytes.ofAscii "GET", Bytes.ofAscii "/sign_in?" ++ queryOf name, Bytes.ofAscii "HTTP/1.0"] := by
  have hmethod : 32 ∉ Bytes.ofAscii "GET" := by decide
  have hversion : 32 ∉ Bytes.ofAscii "HTTP/1.0" := by decide
  have htarget : 32 ∉ Bytes.ofAscii "/sign_in?" ++ queryOf name := by
    rw [List.mem_append, not_or]
    exact ⟨by decide, fun h ↦ (isPlain_of_mem_queryOf _ h).2 (by decide)⟩
  rw [signInLine, List.append_assoc, List.cons_append, splitOn_append_cons hmethod,
    splitOn_append_cons htarget, splitOn_of_notMem hversion]

/-- The name is read off the line. -/
theorem eq_of_signInLine_eq {name other : String} (h : signInLine other = signInLine name) :
    other = name := by
  have hparts := congrArg (splitOn 32) h
  simp only [splitOn_signInLine, List.cons.injEq, List.append_cancel_left_eq, true_and,
    and_true] at hparts
  have hnames : some other.toList = some name.toList := by
    rw [← decode?_queryOf, hparts, decode?_queryOf]
  exact String.toList_inj.1 (Option.some.inj hnames)

/-- A line that has no carriage return is followed by the only end of a head. -/
theorem eq_of_append_headEnd {line front back : Bytes} (h : Bytes.cr ∉ line)
    (heq : line ++ headEnd = front ++ headEnd ++ back) : front = line ∧ back = [] := by
  have hcount := congrArg (List.count Bytes.cr) heq
  simp only [List.count_append, List.count_eq_zero.2 h] at hcount
  have hfront : Bytes.cr ∉ front := List.count_eq_zero.1 (by omega)
  have hcut : cutHead (line ++ headEnd) = some (line, []) := by
    rw [← List.append_nil headEnd, Written.cutHead_line h]
    simp [cutHead, headEnd, Bytes.crlf, Bytes.cr, Bytes.lf]
  have hcut' : cutHead (front ++ (headEnd ++ back)) = some (front, back) := by
    rw [Written.cutHead_line hfront]
    simp [cutHead, headEnd, Bytes.crlf, Bytes.cr, Bytes.lf]
  rw [← List.append_assoc, ← heq, hcut, Option.some.injEq, Prod.mk.injEq] at hcut'
  exact ⟨hcut'.1.symm, hcut'.2.symm⟩

/-- A name cannot break the request to sign in. Under every name the request has bytes, all of them
ASCII. They are its line and the only end of a head among them, with no carriage return or line feed
in the line. The line has three parts between spaces: the method, the target and the version. What
stands in the target behind the path has none of the marks that would part it, and is the name,
percent-encoded as UTF-8; so two names never have the same request. -/
theorem signIn_unbroken (name : String) : ∃ bytes query, (signIn name).encode = .ok bytes ∧
    (∀ b ∈ bytes, b < 0x80) ∧
    let line := Bytes.ofAscii (signIn name).line
    bytes = line ++ headEnd ∧ Bytes.cr ∉ line ∧ Bytes.lf ∉ line ∧
    (∀ front back, bytes = front ++ headEnd ++ back → front = line ∧ back = []) ∧
    splitOn 32 line =
      [Bytes.ofAscii "GET", Bytes.ofAscii "/sign_in?" ++ query, Bytes.ofAscii "HTTP/1.0"] ∧
    (∀ b ∈ Bytes.ofAscii " ?&#/", b ∉ query) ∧
    Utf8.decode? (Percent.decode query) = some name.toList ∧
    ∀ other, (signIn other).encode = .ok bytes → other = name := by
  have hcr : Bytes.cr ∉ signInLine name := notMem_signInLine (by decide) name
  have hlf : Bytes.lf ∉ signInLine name := notMem_signInLine (by decide) name
  have hascii : ∀ b ∈ signInLine name ++ headEnd, b < 0x80 :=
    List.forall_mem_append.2 ⟨isAscii_signInLine name, Bytes.forall_mem_of_all (by decide)⟩
  refine ⟨signInLine name ++ headEnd, queryOf name, encode_signIn name, hascii, ?_⟩
  rw [ofAscii_line_signIn]
  refine ⟨rfl, hcr, hlf, fun _ _ ↦ eq_of_append_headEnd hcr, splitOn_signInLine name, ?_,
    decode?_queryOf name, ?_⟩
  · intro b hb hmem
    have hseparator : b ∈ separators := List.mem_append_right (Bytes.ofAscii "\r\n") hb
    exact (isPlain_of_mem_queryOf b hmem).2 hseparator
  · intro other hother
    rw [encode_signIn, Except.ok.injEq, List.append_cancel_right_eq] at hother
    exact eq_of_signInLine_eq hother

-- a name that holds a space, an escape and the end of a head
example : (signIn "a %2F\r\n\r\n").encode.toOption =
    some (Bytes.ofAscii "GET /sign_in?a%20%252F%0D%0A%0D%0A HTTP/1.0\r\n\r\n") := by
  decide +kernel

end Request

end Wire

end Rendezvous
