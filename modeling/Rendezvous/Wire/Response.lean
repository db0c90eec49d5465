import Rendezvous.Numeral.Integer
import Rendezvous.Text.Latin1
import Rendezvous.Text.Split
import Std.Data.ExtTreeMap

/-!
# Responses

One answer of the server: a status line, header fields and a body. Heads are Latin-1 text in
lines that end with a carriage return and a line feed. Field names are compared in lower case,
and of several fields with one name the last counts. The peer that a response is about stands
in the Pragma field.
-/

namespace Rendezvous.Wire

open Text

/-- Header fields by name. -/
abbrev Headers := Std.ExtTreeMap String String

/-- A complete response. -/
structure Response where
  /-- The number in the status line, or -1 where there is none. -/
  status : Int
  /-- The fields, by name in lower case. -/
  headers : Headers
  body : Bytes
  /-- The bytes of the whole response, head included. -/
  raw : Bytes

namespace Response

/-- The status code of a status line: the integer between its first two spaces. -/
def statusOf (line : List Char) : Int :=
  match splitOn ' ' line with
  | _ :: code :: _ => (Numeral.integer? code).getD (-1)
  | _ => -1

/-- A header line as a field: the name, in lower case, stands before the first colon. -/
def field? (line : List Char) : Option (String × String) :=
  (cutAt ':' line).map fun (name, value) =>
    (String.ofList (Latin1.lower (trim name)), String.ofList (trim value))

/-- The fields of header lines. A line without a colon is passed over. -/
def fieldsOf (lines : List (List Char)) : Headers :=
  (lines.filterMap field?).foldl (fun fields f => fields.insert f.1 f.2) ∅

/-- The status line of a head, and its fields. -/
def readHead (head : Bytes) : List Char × Headers :=
  match splitLines (Latin1.decode head) with
  | [] => ([], ∅)
  | first :: rest => (first, fieldsOf rest)

/-- Whether the server granted the request. -/
def isOk (r : Response) : Bool := r.status = 200

/-- The peer that the response is about. -/
def peerId? (r : Response) : Option Int :=
  r.headers["pragma"]?.bind fun value => Numeral.integer? (trim value.toList)

/-- Whether the server announces that it closes the connection after this response. -/
def closes (r : Response) : Bool :=
  (trim (r.headers.getD "connection" "").toList).map Char.toLower = "close".toList

end Response

end Rendezvous.Wire
