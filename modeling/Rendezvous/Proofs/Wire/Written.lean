import Rendezvous.Proofs.Numeral
import Rendezvous.Proofs.Text.Split
import Rendezvous.Proofs.Wire.Framing
import Std.Data.ExtTreeMap.Lemmas

/-!
# Responses as they are written

A response is written as a status line, header lines, an empty line and a body. No line has a
carriage return, no name has a colon, and the last Content-Length field announces the body; anything
else may stand there, blanks around names and values and the end of a head within the body among
it. What was written is found at the front of a stream whatever stands behind it, with its body to
the byte and with its fields by their names in lower case, the last of a name counting.
-/

namespace Rendezvous.Wire

open Text

section LastOfKey

variable {α β κ : Type}

private theorem findRev?_cons (p : α → Bool) (a : α) (rest : List α) :
    (a :: rest).findRev? p = (rest.findRev? p).or (if p a then some a else none) := by
  rw [List.findRev?]
  cases rest.findRev? p <;> simp

/-- Storing items in order leaves, under each key, the value of the last item that has it. Where no
item has a key, what was there before stays. -/
theorem getElem?_foldl_insert [DecidableEq κ] [Ord κ] [Std.TransOrd κ] [Std.LawfulEqOrd κ]
    (key : α → κ) (value : α → β) (items : List α) (stored : Std.ExtTreeMap κ β) (k : κ) :
    (items.foldl (fun stored a ↦ stored.insert (key a) (value a)) stored)[k]? =
      ((items.findRev? (key · = k)).map value).or stored[k]? := by
  induction items generalizing stored with
  | nil => rfl
  | cons a rest ih =>
    rw [List.foldl_cons, ih, findRev?_cons, Option.map_or, Option.or_assoc,
      Std.ExtTreeMap.getElem?_insert]
    by_cases h : key a = k <;> simp [h]

end LastOfKey

/-- The colon between a name and a value. -/
def colon : UInt8 := 58

/-- A header line in its two parts, blanks around them included. -/
structure Field where
  name : Bytes
  value : Bytes
  name_cr : Bytes.cr ∉ name
  name_colon : colon ∉ name
  value_cr : Bytes.cr ∉ value

namespace Field

/-- The name by which a field is looked up. -/
def key (f : Field) : String := String.ofList (Latin1.lower (trim (Latin1.decode f.name)))

/-- The value without the blanks around it. -/
def text (f : Field) : String := String.ofList (trim (Latin1.decode f.value))

def line (f : Field) : Bytes := f.name ++ colon :: f.value

private theorem line_ne_nil (f : Field) :
    f.line ≠ [] := List.append_ne_nil_of_right_ne_nil _ (by simp)

private theorem cr_notMem_line (f : Field) : Bytes.cr ∉ f.line := by
  rw [line, List.mem_append, List.mem_cons]
  rintro (h | h | h)
  · exact f.name_cr h
  · exact absurd h (by decide)
  · exact f.value_cr h

/-- A line that was written reads as its name and its value. -/
theorem field?_line (f : Field) :
    Response.field? (Latin1.decode f.line) = some (f.key, f.text) := by
  have hcolon : Latin1.charOf colon = ':' := by decide
  have hname : ':' ∉ Latin1.decode f.name := by
    rw [← hcolon, Latin1.charOf_mem_decode]
    exact f.name_colon
  have hline : Latin1.decode f.line = Latin1.decode f.name ++ ':' :: Latin1.decode f.value := by
    rw [line, Latin1.decode_append, ← hcolon]
    rfl
  rw [Response.field?, hline, cutAt_append_cons hname]
  rfl

/-- The value of the last field of a name. -/
def last? (fields : List Field) (key : String) : Option String :=
  (fields.findRev? (·.key = key)).map text

private theorem last?_concat (fields : List Field) (f : Field) :
    last? (fields ++ [f]) f.key = some f.text := by
  simp [last?]

/-- Looking a name up gives the value of its last field. -/
theorem getElem?_fieldsOf (fields : List Field) (name : String) :
    (Response.fieldsOf (fields.map fun f ↦ Latin1.decode f.line))[name]? = last? fields name := by
  have hread : (fields.map fun f ↦ Latin1.decode f.line).filterMap Response.field? =
      fields.map fun f ↦ (f.key, f.text) := by
    rw [List.filterMap_map, ← List.filterMap_eq_map]
    exact congrArg (List.filterMap · fields) (funext field?_line)
  rw [Response.fieldsOf, hread, List.foldl_map, getElem?_foldl_insert key text,
    Std.ExtTreeMap.getElem?_empty, Option.or_none, last?]

private theorem cr_notMem_number (n : Int) : Bytes.cr ∉ Bytes.ofAscii (toString n) := by
  intro h
  obtain ⟨c, hc, hcr⟩ := List.mem_map.1 h
  rcases Numeral.mem_toString hc with rfl | hdigit
  · exact absurd hcr (by decide)
  · have hbounds := Char.isDigit_iff_toNat.1 hdigit
    have hzero : '0'.toNat = 0x30 := rfl
    have hnine : '9'.toNat = 0x39 := rfl
    have hnat : c.toNat % 256 = 13 := (UInt8.toNat_ofNat' ▸ congrArg UInt8.toNat hcr :)
    omega

/-- A field of a name in ASCII with a number behind a blank. -/
def ofNumber (name : String) (name_cr : Bytes.cr ∉ Bytes.ofAscii name)
    (name_colon : colon ∉ Bytes.ofAscii name) (n : Int) : Field where
  name := Bytes.ofAscii name
  value := 32 :: Bytes.ofAscii (toString n)
  name_cr := name_cr
  name_colon := name_colon
  value_cr := List.not_mem_cons_of_ne_of_not_mem (by decide) (cr_notMem_number n)

/-- The field that names a peer. -/
def pragma (peer : Int) : Field := ofNumber "Pragma" (by decide) (by decide) peer

/-- The field that announces so many bytes. -/
def contentLength (size : Nat) : Field :=
  ofNumber "Content-Length" (by decide) (by decide) size

end Field

/-- The status line of a request that is granted. -/
def grantedLine : Bytes := Bytes.ofAscii "HTTP/1.1 200 OK"

/-- The status line of a grant has no carriage return. -/
theorem cr_notMem_grantedLine : Bytes.cr ∉ grantedLine := by decide

/-- A response as the server writes it: the last Content-Length field announces the body. -/
structure Written where
  statusLine : Bytes
  fields : List Field
  body : Bytes
  unbroken : Bytes.cr ∉ statusLine
  announced : (Field.last? fields "content-length").bind (Numeral.integer? ·.toList) =
    some (body.length : Int)

namespace Written

/-- The bytes of a response: its lines, an empty line, and its body. -/
def encode (r : Written) : Bytes :=
  r.statusLine ++ Bytes.crlf ++ r.fields.flatMap (·.line ++ Bytes.crlf) ++ Bytes.crlf ++ r.body

/-- The lines of a response, without the end of the last. -/
def head (r : Written) : Bytes := r.statusLine ++ r.fields.flatMap (Bytes.crlf ++ ·.line)

/-- The response that is read. -/
def response (r : Written) : Response := .ofParts r.head r.body

private theorem encode_eq (r : Written) : r.encode = r.head ++ headEnd ++ r.body := by
  have hshift (fields : List Field) : Bytes.crlf ++ fields.flatMap (·.line ++ Bytes.crlf) =
      fields.flatMap (Bytes.crlf ++ ·.line) ++ Bytes.crlf := by
    induction fields with
    | nil => rfl
    | cons f rest ih =>
      simp only [List.flatMap_cons, List.append_assoc] at ih ⊢
      rw [ih]
  rw [encode, head, headEnd, List.append_assoc r.statusLine, hshift]
  simp only [List.append_assoc]

/-! ### The end of a head -/

/-- A head is cut behind a line as it is cut without the line. -/
theorem cutHead_line {line : Bytes} (h : Bytes.cr ∉ line) (rest : Bytes) :
    cutHead (line ++ rest) = (cutHead rest).map fun cut ↦ (line ++ cut.1, cut.2) := by
  induction line with
  | nil => simp
  | cons b tail ih =>
    rw [List.mem_cons, not_or] at h
    rw [List.cons_append, cutHead.eq_2 _ _ fun _ hb _ ↦ h.1 hb.symm, ih h.2, Option.map_map]
    rfl

/-- A line that is not empty does not end a head. -/
theorem cutHead_crlf_line {line : Bytes} (h : Bytes.cr ∉ line) (hne : line ≠ []) (rest : Bytes) :
    cutHead (Bytes.crlf ++ line ++ rest) =
      (cutHead rest).map fun cut ↦ (Bytes.crlf ++ line ++ cut.1, cut.2) := by
  cases line with
  | nil => exact absurd rfl hne
  | cons b tail =>
    have hb : b ≠ 13 := fun hb ↦ h (hb ▸ List.mem_cons_self)
    have hcut : cutHead (Bytes.crlf ++ (b :: tail) ++ rest) =
        ((cutHead (b :: tail ++ rest)).map fun cut ↦ (10 :: cut.1, cut.2)).map
          fun cut ↦ (13 :: cut.1, cut.2) := by
      show cutHead (13 :: 10 :: b :: (tail ++ rest)) = _
      rw [cutHead.eq_2, cutHead.eq_2]
      · rfl
      · simp
      · intro after _ hafter
        simp only [List.cons.injEq] at hafter
        exact hb hafter.2.1
    rw [hcut, cutHead_line h, Option.map_map, Option.map_map]
    rfl

/-- A head ends where its lines do: no line but the first is empty. -/
theorem cutHead_lines {first : Bytes} {lines : List Bytes} (hfirst : Bytes.cr ∉ first)
    (hlines : ∀ l ∈ lines, Bytes.cr ∉ l ∧ l ≠ []) (after : Bytes) :
    cutHead (first ++ lines.flatMap (Bytes.crlf ++ ·) ++ headEnd ++ after) =
      some (first ++ lines.flatMap (Bytes.crlf ++ ·), after) := by
  have hrest : cutHead (lines.flatMap (Bytes.crlf ++ ·) ++ (headEnd ++ after)) =
      some (lines.flatMap (Bytes.crlf ++ ·), after) := by
    induction lines with
    | nil => rfl
    | cons line rest ih =>
      rw [List.forall_mem_cons] at hlines
      rw [List.flatMap_cons, List.append_assoc, cutHead_crlf_line hlines.1.1 hlines.1.2,
        ih hlines.2]
      rfl
  rw [List.append_assoc, List.append_assoc, cutHead_line hfirst, hrest]
  rfl

private theorem cutHead_head (r : Written) : cutHead (r.head ++ headEnd) = some (r.head, []) := by
  have hlines : ∀ l ∈ r.fields.map Field.line, Bytes.cr ∉ l ∧ l ≠ [] :=
    List.forall_mem_map.2 fun f _ ↦ ⟨f.cr_notMem_line, f.line_ne_nil⟩
  have hcut := cutHead_lines r.unbroken hlines []
  rwa [List.append_nil, List.flatMap_map] at hcut

private theorem readHead_head (r : Written) :
    Response.readHead r.head = (Latin1.decode r.statusLine,
      Response.fieldsOf (r.fields.map fun f ↦ Latin1.decode f.line)) := by
  have hcr {bytes : Bytes} (h : Bytes.cr ∉ bytes) : '\r' ∉ Latin1.decode bytes := by
    have hchar : Latin1.charOf Bytes.cr = '\r' := by decide
    rwa [← hchar, Latin1.charOf_mem_decode]
  have hdecode : Latin1.decode r.head = Latin1.decode r.statusLine ++
      (r.fields.map fun f ↦ Latin1.decode f.line).flatMap ('\r' :: '\n' :: ·) := by
    rw [head, Latin1.decode_append, List.flatMap_map, Latin1.decode, Latin1.decode,
      List.map_flatMap]
    rfl
  have hlines : ∀ l ∈ r.fields.map fun f ↦ Latin1.decode f.line, '\r' ∉ l := by
    rw [List.forall_mem_map]
    exact fun f _ ↦ hcr f.cr_notMem_line
  rw [Response.readHead, hdecode, splitLines_append_flatMap (hcr r.unbroken) hlines]

/-! ### What is read -/

/-- The body of a response is the one that was written. -/
@[simp] theorem body_response (r : Written) : r.response.body = r.body := rfl

/-- A response holds all that was written of it. -/
@[simp] theorem raw_response (r : Written) : r.response.raw = r.encode := r.encode_eq.symm

/-- The status that the status line gives. -/
def status (r : Written) : Int := Response.statusOf (Latin1.decode r.statusLine)

/-- The peer that the last Pragma field gives. -/
def peerId? (r : Written) : Option Int :=
  (Field.last? r.fields "pragma").bind fun value ↦ Numeral.integer? (trim value.toList)

/-- Whether the last Connection field announces a close. -/
def closes (r : Written) : Bool :=
  (trim ((Field.last? r.fields "connection").getD "").toList).map Char.toLower = "close".toList

private theorem status_response (r : Written) : r.response.status = r.status := by
  rw [response, Response.ofParts, readHead_head, status]

private theorem getElem?_headers_response (r : Written) (key : String) :
    r.response.headers[key]? = Field.last? r.fields key := by
  rw [response, Response.ofParts, readHead_head]
  exact Field.getElem?_fieldsOf r.fields key

/-- The peer of a response is the one in its Pragma field. -/
theorem peerId?_response (r : Written) : r.response.peerId? = r.peerId? := by
  rw [Response.peerId?, getElem?_headers_response, peerId?]

/-- A response closes as its Connection field says. -/
theorem closes_response (r : Written) : r.response.closes = r.closes := by
  rw [Response.closes, Std.ExtTreeMap.getD_eq_getD_getElem?, getElem?_headers_response, closes]

/-- A response grants just under status 200. -/
theorem isOk_response (r : Written) : r.response.isOk = decide (r.status = 200) := by
  rw [Response.isOk, status_response]

private theorem bodyLength_head (r : Written) :
    bodyLength (Response.readHead r.head).2 = .ok r.body.length := by
  obtain ⟨value, hvalue, hlength⟩ := Option.bind_eq_some_iff.1 r.announced
  rw [readHead_head, bodyLength, Field.getElem?_fieldsOf, hvalue]
  simp only [hlength]

/-- What was written is the first response of every stream that starts with it. -/
theorem next?_encode (r : Written) (limit : Option Int) (rest : Bytes) :
    (⟨limit, r.encode ++ rest⟩ : Framer).next? = .ok (some (r.response, rest)) := by
  rw [encode_eq]
  exact Framer.next?_ofParts r.cutHead_head r.bodyLength_head limit

/-- Polling takes what was written off the front, whatever is held behind it. -/
theorem poll_encode (r : Written) (limit : Option Int) (rest : Bytes) :
    (⟨limit, r.encode ++ rest⟩ : Framer).poll = (.ok (some r.response), ⟨limit, rest⟩) := by
  rw [Framer.poll, next?_encode]

end Written

/-- A framer with no limit inverts the written form. It is fed a status line, header lines of which
the last gives the number of bytes of the body as a Content-Length, an empty line, the body, and any
bytes behind it. The first poll gives a response with the status that stands in the status line,
the trimmed value of the last field of each name, the body and the bytes that were written; what
came behind them stays held. That the number of bytes has at most 4300 digits is what reading a
number asks for. -/
theorem poll_of_written {statusLine : Bytes} (unbroken : Bytes.cr ∉ statusLine)
    (fields : List Field) {length : Field} {body : Bytes} (hkey : length.key = "content-length")
    (htext : length.text = toString body.length) (hdigits : Numeral.IsWritable body.length)
    (trailing : Bytes) :
    let lines := fields ++ [length]
    let written := statusLine ++ Bytes.crlf ++ lines.flatMap (·.line ++ Bytes.crlf) ++ Bytes.crlf ++
      body
    ∃ response, (({} : Framer).feed (written ++ trailing)).poll =
        (.ok (some response), { buffer := trailing }) ∧
      response.status = Response.statusOf (Latin1.decode statusLine) ∧
      (∀ key, response.headers[key]? = Field.last? lines key) ∧
      response.body = body ∧ response.raw = written := by
  have hlast : Field.last? (fields ++ [length]) "content-length" = some length.text :=
    hkey ▸ Field.last?_concat fields length
  have hsame : toString body.length = toString (body.length : Int) := rfl
  have hannounced : (Field.last? (fields ++ [length]) "content-length").bind
      (Numeral.integer? ·.toList) = some (body.length : Int) := by
    rw [hlast, Option.bind_some, htext, hsame, Numeral.integer?_toString hdigits]
  let reply : Written := ⟨statusLine, fields ++ [length], body, unbroken, hannounced⟩
  exact ⟨reply.response, reply.poll_encode none trailing, reply.status_response,
    reply.getElem?_headers_response, reply.body_response, reply.raw_response⟩

/-- A field that is written with blanks around its name and its value. -/
def spacedField : Field where
  name := Bytes.ofAscii " PRAGMA "
  value := Bytes.ofAscii "\t 7 : 8 "
  name_cr := by decide
  name_colon := by decide
  value_cr := by decide

/-- A length of four, in mixed case. -/
def lengthOfFour : Field where
  name := Bytes.ofAscii "content-LENGTH"
  value := Bytes.ofAscii " 4"
  name_cr := by decide
  name_colon := by decide
  value_cr := by decide

/-- The end of a head as a body, and a field that another of its name follows. -/
theorem poll_of_written_headEnd :
    (Bytes.cr ∉ grantedLine ∧ lengthOfFour.key = "content-length" ∧
      lengthOfFour.text = toString headEnd.length ∧ Numeral.IsWritable headEnd.length) ∧
    ∃ response,
      (({} : Framer).feed (grantedLine ++ Bytes.crlf ++
        ([lengthOfFour, spacedField] ++ [lengthOfFour]).flatMap (·.line ++ Bytes.crlf) ++
          Bytes.crlf ++ headEnd ++ Bytes.ofAscii "HTTP")).poll =
        (.ok (some response), { buffer := Bytes.ofAscii "HTTP" }) ∧
      response.status = 200 ∧ response.headers["pragma"]? = some "7 : 8" ∧
      response.body = headEnd := by
  have hkey : lengthOfFour.key = "content-length" := by decide
  have htext : lengthOfFour.text = toString headEnd.length := by decide
  have hdigits : Numeral.IsWritable headEnd.length :=
    Numeral.isWritable_of_lt (k := 1) (by decide) (by decide)
  obtain ⟨response, hpoll, hstatus, hheaders, hbody, -⟩ := poll_of_written cr_notMem_grantedLine
    [lengthOfFour, spacedField] hkey htext hdigits (Bytes.ofAscii "HTTP")
  refine ⟨⟨cr_notMem_grantedLine, hkey, htext, hdigits⟩, response, hpoll, hstatus.trans ?_, ?_,
    hbody⟩
  · decide
  · rw [hheaders]
    decide

end Rendezvous.Wire
