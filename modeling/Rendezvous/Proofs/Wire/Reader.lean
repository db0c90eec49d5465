import Rendezvous.Proofs.Text.Utf8
import Rendezvous.Proofs.Wire.Request
import Rendezvous.Proofs.Wire.Written
import Rendezvous.Session.Calls
import Std.Data.String.ToInt

/-!
# Requests as the server reads them

The server reads a request up to the first empty line, takes its first line apart at spaces, the
target at its first question mark and the query at ampersands, and then reads as many bytes as the
Content-Length field announces. What a client with an id sends is read back by it to the byte,
whatever stands in the payload and whatever follows the request.
-/

namespace Rendezvous.Wire

open Text Numeral

/-- A request as it is read: its method, the two sides of its target, and its body. -/
structure Received where
  method : String
  path : String
  params : List (String × String)
  body : Bytes
  deriving DecidableEq, Repr

namespace Received

/-- Both sides of the first colon that a blank follows. -/
def cutField : List Char → Option (List Char × List Char)
  | ':' :: ' ' :: rest => some ([], rest)
  | c :: rest => (cutField rest).map fun cut ↦ (c :: cut.1, cut.2)
  | [] => none

/-- How many bytes of body the lines of a head announce: none without a field that says so. -/
def announced? (lines : List (List Char)) : Option Nat :=
  match (lines.filterMap cutField).findRev? (·.1 = "Content-Length".toList) with
  | none => some 0
  | some (_, value) => (String.ofList value).toNat?

/-- A part of a query as a name and a value. -/
def param? (part : List Char) : Option (String × String) :=
  (cutAt '=' part).map fun cut ↦ (String.ofList cut.1, String.ofList cut.2)

/-- The names and values of a query. -/
def paramsOf (query : List Char) : List (String × String) := (splitOn '&' query).filterMap param?

/-- The request with a first line, further lines, and bytes behind its head, and what is left of
these. -/
def ofLines? (first : List Char) (lines : List (List Char)) (after : Bytes) :
    Option (Received × Bytes) :=
  match splitOn ' ' first, announced? lines with
  | [method, target, _version], some size =>
    if after.length < size then none
    else
      let (path, query) := (cutAt '?' target).getD (target, [])
      some ({
        method := String.ofList method
        path := String.ofList path
        params := paramsOf query
        body := after.take size }, after.drop size)
  | _, _ => none

/-- The request at the front of a stream, and the bytes behind it. -/
def read? (stream : Bytes) : Option (Received × Bytes) :=
  match cutHead stream with
  | none => none
  | some (head, after) =>
    match splitLines (Latin1.decode head) with
    | [] => none
    | first :: lines => ofLines? first lines after

/-- The integer that the last parameter of a name gives. -/
def number? (r : Received) (name : String) : Option Int :=
  (r.params.findRev? (·.1 = name)).bind (·.2.toInt?)

end Received

/-- What a client that has an id sends. -/
inductive Sent where
  | message (id peer : Int) (payload : Bytes)
  | wait (id : Int)
  | signOut (id : Int)
  deriving DecidableEq, Repr

namespace Sent

/-- The bytes that are sent. -/
def encode : Sent → Except RequestError Bytes
  | message id peer payload => Request.message id peer payload >>= Request.encode
  | wait id => Request.wait id >>= Request.encode
  | signOut id => Request.signOut id >>= Request.encode

/-- Whether the ids have few enough digits to be written. -/
def IsWritable : Sent → Prop
  | message id peer _ => Numeral.IsWritable id ∧ Numeral.IsWritable peer
  | wait id => Numeral.IsWritable id
  | signOut id => Numeral.IsWritable id

end Sent

/-- What a request that was read asks for. -/
def Received.sent? (r : Received) : Option Sent :=
  if r.method = "POST" ∧ r.path = "/message" then do
    return .message (← r.number? "peer_id") (← r.number? "to") r.body
  else if r.method = "GET" ∧ r.path = "/wait" ∧ r.body = [] then do
    return .wait (← r.number? "peer_id")
  else if r.method = "GET" ∧ r.path = "/sign_out" ∧ r.body = [] then do
    return .signOut (← r.number? "peer_id")
  else none

/-! ### Lines -/

namespace Request

/-- Whether a text can be written on a line of its own. -/
def IsLine (text : String) : Prop := IsLatin text ∧ '\r' ∉ text.toList

instance (text : String) : Decidable (IsLine text) := instDecidableAnd

private theorem IsLine.append {a b : String} (ha : IsLine a) (hb : IsLine b) : IsLine (a ++ b) := by
  refine ⟨ha.1.append hb.1, ?_⟩
  rw [String.toList_append, List.mem_append]
  exact fun h ↦ h.elim ha.2 hb.2

/-- Nothing but a minus and digits stands in the text of an integer. -/
theorem notMem_toString {c : Char} (hminus : c ≠ '-') (hdigit : c.isDigit = false) (n : Int) :
    c ∉ (toString n).toList := by
  intro hc
  rcases mem_toString hc with rfl | h
  · exact hminus rfl
  · exact absurd h (by simp [hdigit])

/-- Whether a text can be written on a line between spaces. -/
def IsWord (text : String) : Prop := IsLine text ∧ ' ' ∉ text.toList

instance (text : String) : Decidable (IsWord text) := instDecidableAnd

private theorem IsWord.append {a b : String} (ha : IsWord a) (hb : IsWord b) : IsWord (a ++ b) := by
  refine ⟨ha.1.append hb.1, ?_⟩
  rw [String.toList_append, List.mem_append]
  exact fun h ↦ h.elim ha.2 hb.2

private theorem isWord_toString (n : Int) : IsWord (toString n) :=
  ⟨⟨isLatin_toString n, notMem_toString (by decide) (by decide) n⟩,
    notMem_toString (by decide) (by decide) n⟩

private theorem decode_ofAscii {text : String} (h : IsLatin text) :
    Latin1.decode (Bytes.ofAscii text) = text.toList := by
  rw [Latin1.decode, Bytes.ofAscii, List.map_map]
  exact (List.map_congr_left fun c hc ↦ Latin1.charOf_ofNat (h c hc)).trans (List.map_id _)

private theorem IsLine.cr_notMem {text : String} (h : IsLine text) :
    Bytes.cr ∉ Bytes.ofAscii text := by
  have hchar : Latin1.charOf Bytes.cr = '\r' := by decide
  rw [← Latin1.charOf_mem_decode, decode_ofAscii h.1, hchar]
  exact h.2

/-- The lines of a head behind the first. -/
def fieldLines (r : Request) : List String := r.sentHeaders.map fun f ↦ f.1 ++ ": " ++ f.2

/-- A head in bytes: its lines, with an end between each two, and the bytes that end it. -/
theorem head_eq (r : Request) : r.head.map (fun c ↦ UInt8.ofNat c.toNat) =
    Bytes.ofAscii r.line ++ (r.fieldLines.map Bytes.ofAscii).flatMap (Bytes.crlf ++ ·) ++
      headEnd := by
  have hline (l : String) : (l.toList ++ ['\r', '\n']).map (fun c ↦ UInt8.ofNat c.toNat) =
      Bytes.ofAscii l ++ Bytes.crlf := List.map_append
  -- the end behind every line is the end before every line but the first, and one behind the last
  have hshift (lines : List String) :
      Bytes.crlf ++ (lines.map Bytes.ofAscii).flatMap (· ++ Bytes.crlf) =
        (lines.map Bytes.ofAscii).flatMap (Bytes.crlf ++ ·) ++ Bytes.crlf := by
    induction lines with
    | nil => rfl
    | cons l rest ih =>
      simp only [List.map_cons, List.flatMap_cons, List.append_assoc] at ih ⊢
      rw [ih]
  have hlines (lines : List String) :
      (lines.flatMap fun l ↦ l.toList ++ ['\r', '\n']).map (fun c ↦ UInt8.ofNat c.toNat) =
        (lines.map Bytes.ofAscii).flatMap (· ++ Bytes.crlf) := by
    rw [List.map_flatMap, List.flatMap_map]
    exact congrArg (List.flatMap · lines) (funext hline)
  show (((r.line :: r.fieldLines).flatMap fun l ↦ l.toList ++ ['\r', '\n']) ++
    ['\r', '\n']).map _ = _
  rw [List.map_append, hlines, List.map_cons, List.flatMap_cons, List.append_assoc
    (Bytes.ofAscii r.line), hshift, headEnd]
  simp only [List.append_assoc]
  rfl

/-- A head of lines is read back as these lines, whatever follows it. -/
theorem read?_head {r : Request} (hfirst : IsLine r.line)
    (hlines : ∀ l ∈ r.fieldLines, IsLine l ∧ l ≠ "") (after : Bytes) :
    Received.read? (r.head.map (fun c ↦ UInt8.ofNat c.toNat) ++ after) =
      Received.ofLines? r.line.toList (r.fieldLines.map String.toList) after := by
  have hbytes : ∀ l ∈ r.fieldLines.map Bytes.ofAscii, Bytes.cr ∉ l ∧ l ≠ [] := by
    refine List.forall_mem_map.2 fun l hl ↦ ⟨(hlines l hl).1.cr_notMem, ?_⟩
    rw [Bytes.ofAscii, ne_eq, List.map_eq_nil_iff, String.toList_eq_nil_iff]
    exact (hlines l hl).2
  have hhead : Latin1.decode (Bytes.ofAscii r.line ++
      (r.fieldLines.map Bytes.ofAscii).flatMap (Bytes.crlf ++ ·)) =
        r.line.toList ++ (r.fieldLines.map String.toList).flatMap ('\r' :: '\n' :: ·) := by
    rw [Latin1.decode_append, decode_ofAscii hfirst.1, Latin1.decode, List.map_flatMap,
      List.flatMap_map, List.flatMap_map]
    have hline (l : String) (hl : l ∈ r.fieldLines) :
        (Bytes.crlf ++ Bytes.ofAscii l).map Latin1.charOf = '\r' :: '\n' :: l.toList :=
      congrArg ('\r' :: '\n' :: ·) (decode_ofAscii (hlines l hl).1.1)
    rw [List.flatMap_def, List.flatMap_def, List.map_congr_left hline]
  have hcr : ∀ l ∈ r.fieldLines.map String.toList, '\r' ∉ l :=
    List.forall_mem_map.2 fun l hl ↦ (hlines l hl).1.2
  rw [head_eq, Received.read?, Written.cutHead_lines hfirst.cr_notMem hbytes]
  simp only [hhead, splitLines_append_flatMap hfirst.2 hcr]

end Request

/-! ### The parts of the first line -/

namespace Received

variable {method path query version : List Char}

private theorem ofLines?_line (hmethod : ' ' ∉ method) (hpath : ' ' ∉ path ∧ '?' ∉ path)
    (hquery : ' ' ∉ query) (hversion : ' ' ∉ version) {lines : List (List Char)} {body : Bytes}
    (hsize : announced? lines = some body.length) (further : Bytes) :
    ofLines? (method ++ ' ' :: (path ++ '?' :: query ++ ' ' :: version)) lines (body ++ further) =
      some ({
        method := String.ofList method
        path := String.ofList path
        params := paramsOf query
        body }, further) := by
  have htarget : ' ' ∉ path ++ '?' :: query := by
    simp [hpath.1, hquery]
  have hlong : ¬ (body ++ further).length < body.length := by
    rw [List.length_append]
    omega
  rw [ofLines?, splitOn_append_cons hmethod, splitOn_append_cons htarget,
    splitOn_of_notMem hversion, hsize]
  simp only [if_neg hlong, cutAt_append_cons hpath.2, Option.getD_some, List.take_left,
    List.drop_left]

private theorem param?_append_cons {name : List Char} (h : '=' ∉ name) (value : List Char) :
    param? (name ++ '=' :: value) = some (String.ofList name, String.ofList value) := by
  rw [param?, cutAt_append_cons h]
  rfl

private theorem paramsOf_one {name value : List Char} (hname : '=' ∉ name ∧ '&' ∉ name)
    (hvalue : '&' ∉ value) :
    paramsOf (name ++ '=' :: value) = [(String.ofList name, String.ofList value)] := by
  have hpart : '&' ∉ name ++ '=' :: value := by simp [hname.2, hvalue]
  rw [paramsOf, splitOn_of_notMem hpart, List.filterMap_cons_some (param?_append_cons hname.1 _)]
  rfl

private theorem paramsOf_cons {name value : List Char} (hname : '=' ∉ name ∧ '&' ∉ name)
    (hvalue : '&' ∉ value) (rest : List Char) :
    paramsOf (name ++ '=' :: value ++ '&' :: rest) =
      (String.ofList name, String.ofList value) :: paramsOf rest := by
  have hpart : '&' ∉ name ++ '=' :: value := by simp [hname.2, hvalue]
  rw [paramsOf, splitOn_append_cons hpart,
    List.filterMap_cons_some (param?_append_cons hname.1 _)]
  rfl

private theorem cutField_append {name : List Char} (h : ':' ∉ name) (value : List Char) :
    cutField (name ++ ':' :: ' ' :: value) = some (name, value) := by
  induction name with
  | nil => rfl
  | cons c rest ih =>
    rw [List.mem_cons, not_or] at h
    rw [List.cons_append, cutField.eq_2 _ _ fun _ hc _ ↦ h.1 hc.symm, ih h.2]
    rfl

/-- The fields of a relay announce its payload. -/
theorem announced?_message (size : Nat) :
    announced? ["Content-Length".toList ++ ':' :: ' ' :: size.repr.toList,
      "Content-Type".toList ++ ':' :: ' ' :: "text/plain".toList] = some size := by
  have hnames : ':' ∉ "Content-Length".toList ∧ ':' ∉ "Content-Type".toList := by decide
  have hlength := cutField_append hnames.1 size.repr.toList
  have htype := cutField_append hnames.2 "text/plain".toList
  have hfields : List.filterMap cutField ["Content-Length".toList ++ ':' :: ' ' :: size.repr.toList,
      "Content-Type".toList ++ ':' :: ' ' :: "text/plain".toList] =
        [("Content-Length".toList, size.repr.toList),
          ("Content-Type".toList, "text/plain".toList)] := by
    rw [List.filterMap_cons_some hlength, List.filterMap_cons_some htype, List.filterMap_nil]
  have hother : "Content-Type".toList ≠ "Content-Length".toList := by decide
  rw [announced?, hfields]
  simp only [List.findRev?, hother, decide_false, decide_true, Bool.false_eq_true, ↓reduceIte,
    String.ofList_toList]
  exact Nat.toNat?_repr size

end Received

/-! ### Reading back -/

namespace Request

/-- A request whose fields announce its body is read back, whatever the body is and whatever
follows the request. -/
theorem read?_encode {r : Request} {path query : String} (hmethod : IsWord r.method)
    (hpath : IsWord path ∧ '?' ∉ path.toList) (hquery : IsWord query)
    (htarget : r.target = path ++ "?" ++ query)
    (hfields : ∀ f ∈ r.sentHeaders, IsLine f.1 ∧ IsLine f.2)
    (hsize : Received.announced? (r.fieldLines.map String.toList) = some r.body.length)
    (further : Bytes) :
    ∃ bytes, r.encode = .ok bytes ∧ Received.read? (bytes ++ further) = some ({
      method := r.method
      path
      params := Received.paramsOf query.toList
      body := r.body }, further) := by
  have hword : IsWord r.target := by
    rw [htarget]
    exact (hpath.1.append (by decide)).append hquery
  have hspace : IsLine " " := by decide
  have hversion : IsWord version := by decide
  have hfirst : IsLine r.line :=
    (((hmethod.1.append hspace).append hword.1).append hspace).append hversion.1
  have hlines : ∀ l ∈ r.fieldLines, IsLine l ∧ l ≠ "" := by
    refine List.forall_mem_map.2 fun f hf ↦ ⟨?_, by simp⟩
    exact ((hfields f hf).1.append (by decide)).append (hfields f hf).2
  have hline : r.line.toList = r.method.toList ++ ' ' ::
      (path.toList ++ '?' :: query.toList ++ ' ' :: version.toList) := by
    simp [line, htarget]
  refine ⟨_, encode_of_isLatin hmethod.1.1 hword.1.1 fun f hf ↦
    ⟨(hfields f hf).1.1, (hfields f hf).2.1⟩, ?_⟩
  rw [List.append_assoc, read?_head hfirst hlines, hline, Received.ofLines?_line hmethod.2
    ⟨hpath.1.2, hpath.2⟩ hquery.2 hversion.2 hsize]
  simp only [String.ofList_toList]

/-- The query that names one id. -/
theorem isWord_idQuery (id : Int) : IsWord ("peer_id=" ++ toString id) :=
  IsWord.append (by decide) (isWord_toString id)

private theorem paramsOf_idQuery (id : Int) :
    Received.paramsOf ("peer_id=" ++ toString id).toList = [("peer_id", toString id)] := by
  have hquery : ("peer_id=" ++ toString id).toList =
      "peer_id".toList ++ '=' :: (toString id).toList := String.toList_append
  rw [hquery, Received.paramsOf_one (by decide) (notMem_toString (by decide) (by decide) id)]
  simp only [String.ofList_toList]

/-- The query that names a sender and a receiver. -/
theorem isWord_pairQuery (id peer : Int) :
    IsWord ("peer_id=" ++ toString id ++ "&to=" ++ toString peer) :=
  ((isWord_idQuery id).append (by decide)).append (isWord_toString peer)

private theorem paramsOf_pairQuery (id peer : Int) :
    Received.paramsOf ("peer_id=" ++ toString id ++ "&to=" ++ toString peer).toList =
      [("peer_id", toString id), ("to", toString peer)] := by
  have hamp (n : Int) : '&' ∉ (toString n).toList := notMem_toString (by decide) (by decide) n
  have hquery : ("peer_id=" ++ toString id ++ "&to=" ++ toString peer).toList =
      "peer_id".toList ++ '=' :: (toString id).toList ++ '&' ::
        ("to".toList ++ '=' :: (toString peer).toList) := by
    simp only [String.toList_append, List.append_assoc]
    rfl
  rw [hquery, Received.paramsOf_cons (by decide) (hamp id), Received.paramsOf_one (by decide)
    (hamp peer)]
  simp only [String.ofList_toList]

/-- A request about one id without a body is read back. -/
theorem read?_encode_get {path : String} (hpath : IsWord path ∧ '?' ∉ path.toList) (id : Int)
    (further : Bytes) :
    ∃ bytes, ({ method := "GET", target := path ++ "?peer_id=" ++ toString id } :
        Request).encode = .ok bytes ∧
      Received.read? (bytes ++ further) = some (
        { method := "GET", path, params := [("peer_id", toString id)], body := [] }, further) := by
  have hmethod : IsWord "GET" := by decide
  have hname : "?peer_id=" = "?" ++ "peer_id=" := rfl
  have htarget : path ++ "?peer_id=" ++ toString id =
      path ++ "?" ++ ("peer_id=" ++ toString id) := by
    simp only [hname, String.append_assoc]
  rw [← paramsOf_idQuery]
  exact read?_encode hmethod hpath (isWord_idQuery id) htarget (List.forall_mem_nil _) rfl further

/-- A relay is read back. -/
theorem read?_encode_message {id peer : Int} (h : Numeral.IsWritable id)
    (hpeer : Numeral.IsWritable peer) (payload further : Bytes) :
    ∃ bytes, (message id peer payload >>= encode) = .ok bytes ∧
      Received.read? (bytes ++ further) = some (
        { method := "POST", path := "/message"
          params := [("peer_id", toString id), ("to", toString peer)], body := payload },
        further) := by
  have hmethod : IsWord "POST" := by decide
  have hpath : IsWord "/message" ∧ '?' ∉ "/message".toList := by decide
  have htarget : "/message?peer_id=" ++ toString id ++ "&to=" ++ toString peer =
      "/message" ++ "?" ++ ("peer_id=" ++ toString id ++ "&to=" ++ toString peer) := by
    simp only [← String.append_assoc]
    rfl
  have hsent : sentHeaders {
      method := "POST"
      target := "/message?peer_id=" ++ toString id ++ "&to=" ++ toString peer
      headers := [("Content-Length", payload.length.repr), ("Content-Type", "text/plain")]
      body := payload } =
        [("Content-Length", payload.length.repr), ("Content-Type", "text/plain")] := by
    rw [sentHeaders, List.any_cons, decide_eq_true rfl, Bool.true_or, Bool.or_true, if_pos rfl]
  have hlength : IsLine "Content-Length" ∧ IsLine payload.length.repr :=
    ⟨by decide, (isWord_toString payload.length).1⟩
  have htype : IsLine "Content-Type" ∧ IsLine "text/plain" := by decide
  simp only [message_of_isWritable h hpeer, bind, Except.bind]
  rw [← paramsOf_pairQuery]
  refine read?_encode hmethod hpath (isWord_pairQuery id peer) htarget ?_ ?_ further
  · rw [hsent]
    exact List.forall_mem_cons.2 ⟨hlength, List.forall_mem_singleton.2 htype⟩
  · rw [fieldLines, hsent]
    simp only [List.map_cons, List.map_nil, String.toList_append]
    exact Received.announced?_message payload.length

end Request

namespace Sent

/-- The request that is read back. -/
def received : Sent → Received
  | message id peer payload =>
    { method := "POST", path := "/message"
      params := [("peer_id", toString id), ("to", toString peer)], body := payload }
  | wait id =>
    { method := "GET", path := "/wait", params := [("peer_id", toString id)], body := [] }
  | signOut id =>
    { method := "GET", path := "/sign_out", params := [("peer_id", toString id)], body := [] }

/-- What a client sends is read back, and what follows it is left as it was. -/
theorem read?_encode {s : Sent} (h : s.IsWritable) (further : Bytes) :
    ∃ bytes, s.encode = .ok bytes ∧
      Received.read? (bytes ++ further) = some (s.received, further) := by
  cases s with
  | message id peer payload => exact Request.read?_encode_message h.1 h.2 payload further
  | wait id =>
    have hpath : Request.IsWord "/wait" ∧ '?' ∉ "/wait".toList := by decide
    simp only [encode, Request.wait_of_isWritable h, bind, Except.bind]
    exact Request.read?_encode_get hpath id further
  | signOut id =>
    have hpath : Request.IsWord "/sign_out" ∧ '?' ∉ "/sign_out".toList := by decide
    simp only [encode, Request.signOut_of_isWritable h, bind, Except.bind]
    exact Request.read?_encode_get hpath id further

-- a wait in front of the beginning of a reply
example : Received.read? (Bytes.ofAscii "GET /wait?peer_id=9 HTTP/1.0\r\n\r\nHTTP") =
    some ((wait 9).received, Bytes.ofAscii "HTTP") := by decide

private theorem sent?_received (s : Sent) : s.received.sent? = some s := by
  cases s with
  | message id peer payload =>
    simp [received, Received.sent?, Received.number?]
  | wait id => simp [received, Received.sent?, Received.number?]
  | signOut id => simp [received, Received.sent?, Received.number?]

/-- Only ids that can be written are sent. -/
theorem isWritable_of_encode {s : Sent} {bytes : Bytes} (h : s.encode = .ok bytes) :
    s.IsWritable := by
  have hid {id : Int} {next : String → Except RequestError Bytes}
      (hnext : (Request.idText id >>= next) = .ok bytes) :
      Numeral.IsWritable id ∧ next (toString id) = .ok bytes := by
    by_cases hw : Numeral.IsWritable id
    · rw [Request.idText_of_isWritable hw] at hnext
      exact ⟨hw, hnext⟩
    · rw [Request.idText_of_not_isWritable hw] at hnext
      cases hnext
  cases s with
  | message id peer payload =>
    rw [encode, Request.message, bind_assoc] at h
    obtain ⟨hself, h⟩ := hid h
    rw [bind_assoc] at h
    exact ⟨hself, (hid h).1⟩
  | wait id =>
    rw [encode, Request.wait, bind_assoc] at h
    exact (hid h).1
  | signOut id =>
    rw [encode, Request.signOut, bind_assoc] at h
    exact (hid h).1

/-- What is sent can be told from its bytes, and where it ends. -/
theorem eq_of_encode_append {s s' : Sent} {bytes bytes' further further' : Bytes}
    (h : s.encode = .ok bytes) (h' : s'.encode = .ok bytes')
    (heq : bytes ++ further = bytes' ++ further') : s = s' ∧ further = further' := by
  obtain ⟨_, hbytes, hread⟩ := read?_encode (isWritable_of_encode h) further
  obtain ⟨_, hbytes', hread'⟩ := read?_encode (isWritable_of_encode h') further'
  cases h.symm.trans hbytes
  cases h'.symm.trans hbytes'
  rw [heq, hread', Option.some.injEq, Prod.mk.injEq] at hread
  have hsent : s'.received.sent? = s.received.sent? := congrArg Received.sent? hread.1
  rw [sent?_received, sent?_received, Option.some.injEq] at hsent
  exact ⟨hsent.symm, hread.2.symm⟩

/-- A client's requests are read back without ambiguity. Between ids that can be written a request
has bytes, and the reader finds in them, whatever follows, the method, the path, the ids and the
payload that were sent, and leaves what followed; so two requests of the same bytes, continued in
whatever way, are the same request and continued in the same way. A text is sent as its UTF-8
bytes, from which it can be read back. -/
theorem recovered_from_bytes {s : Sent} (h : s.IsWritable) (further : Bytes) :
    (∃ bytes, s.encode = .ok bytes ∧
      Received.read? (bytes ++ further) = some (s.received, further) ∧
      s.received.sent? = some s ∧
      ∀ s' bytes' further', s'.encode = .ok bytes' → bytes ++ further = bytes' ++ further' →
        s = s' ∧ further = further') ∧
    ∀ tell peer (text : String),
      SessionM.perform tell (.send peer text) =
        SessionM.perform tell (.sendBytes peer (Utf8.encode text.toList)) ∧
      ∀ id, Utf8.decodeLossy (message id peer (Utf8.encode text.toList)).received.body =
        text.toList := by
  obtain ⟨bytes, hbytes, hread⟩ := read?_encode h further
  refine ⟨⟨bytes, hbytes, hread, sent?_received s, fun _ _ _ ↦ eq_of_encode_append hbytes⟩, ?_⟩
  intro tell peer text
  refine ⟨?_, fun _ ↦ Utf8.decodeLossy_encode text.toList⟩
  rw [SessionM.perform, Request.payloadOf_ofString, SessionM.perform]

/-- A request with an empty line at its end. -/
def nested : Bytes := Bytes.ofAscii "GET /wait?peer_id=9 HTTP/1.0\r\n\r\n"

/-- A request as the payload of another and behind it. -/
theorem recovered_from_bytes_nested :
    (message 7 (-3) nested).IsWritable ∧
    ∃ bytes, (message 7 (-3) nested).encode = .ok bytes ∧
      Received.read? (bytes ++ nested) = some (
        { method := "POST", path := "/message", params := [("peer_id", "7"), ("to", "-3")]
          body := nested }, nested) := by
  have hids : Numeral.IsWritable 7 ∧ Numeral.IsWritable (-3) :=
    ⟨isWritable_of_lt (k := 1) (by decide) (by decide),
      isWritable_of_lt (k := 1) (by decide) (by decide)⟩
  obtain ⟨⟨bytes, hbytes, hread, -⟩, -⟩ :=
    recovered_from_bytes (s := message 7 (-3) nested) hids nested
  exact ⟨hids, bytes, hbytes, hread⟩

end Sent

end Rendezvous.Wire
