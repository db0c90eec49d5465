import Rendezvous.Numeral.Integer
import Rendezvous.Text.Latin1
import Rendezvous.Text.Percent
import Rendezvous.Text.Raw
import Rendezvous.Text.Utf8

/-!
# Requests

The messages a client sends: a request line, header fields in the order they were set, an empty
line and a body. A body is always announced by a Content-Length field. Four requests make up
the protocol: signing in, waiting, relaying a payload to a peer, and signing out.
-/

namespace Rendezvous.Wire

open Text

/-- Why a request has no bytes. -/
inductive RequestError where
  /-- A peer id has more digits than can be written. -/
  | idTooLong
  /-- The head has a character outside Latin-1. -/
  | notLatin1
  /-- A text has a surrogate, which has no UTF-8. -/
  | surrogate
  deriving DecidableEq, Repr

/-- A request with its header fields in order. -/
structure Request where
  method : String
  target : String
  headers : List (String × String) := []
  body : Bytes := []
  deriving DecidableEq, Repr

namespace Request

/-- The protocol version of every request. -/
def version : String := "HTTP/1.0"

/-- The first line of a request. -/
def line (r : Request) : String := r.method ++ " " ++ r.target ++ " " ++ version

/-- Sets a field: in its place if the name is set already, else after all others. -/
def setField (fields : List (String × String)) (name value : String) : List (String × String) :=
  if fields.any (·.1 = name) then
    fields.map fun f => if f.1 = name then (name, value) else f
  else fields ++ [(name, value)]

/-- The fields that are written: a body that is not announced is announced last. -/
def sentHeaders (r : Request) : List (String × String) :=
  if r.body.isEmpty || r.headers.any (·.1 = "Content-Length") then r.headers
  else r.headers ++ [("Content-Length", toString r.body.length)]

/-- The head of a request: each line with its end, and an empty line. -/
def head (r : Request) : List Char :=
  let lines := r.line :: r.sentHeaders.map fun (name, value) => name ++ ": " ++ value
  lines.flatMap (fun l => l.toList ++ ['\r', '\n']) ++ ['\r', '\n']

/-- The bytes of a request. -/
def encode (r : Request) : Except RequestError Bytes :=
  match Latin1.encode? r.head with
  | some head => .ok (head ++ r.body)
  | none => .error .notLatin1

/-- The digits of a peer id in a target. -/
def idText (id : Int) : Except RequestError String :=
  match Numeral.integerText? id with
  | some text => .ok text
  | none => .error .idTooLong

/-- The string of a text that a caller gave. -/
def plainText (t : Raw) : Except RequestError String :=
  match t.string? with
  | some s => .ok s
  | none => .error .surrogate

/-- The bytes of a client name that stand for themselves in a target. -/
def isNameByte (b : UInt8) : Bool :=
  Percent.isAlphanumeric b || (Bytes.ofAscii "@:+=!$'()*~._-").contains b

/-- Signing in under a name. -/
def signIn (name : String) : Request :=
  let query := Percent.encode isNameByte (Utf8.encode name.toList)
  { method := "GET", target := "/sign_in?" ++ String.ofList (Latin1.decode query) }

/-- Signing in under a name that a caller gave. -/
def signInAs (name : Raw) : Except RequestError Request := do
  return signIn (← plainText name)

/-- Waiting for the next notification. -/
def wait (id : Int) : Except RequestError Request := do
  return { method := "GET", target := "/wait?peer_id=" ++ (← idText id) }

/-- Signing out. -/
def signOut (id : Int) : Except RequestError Request := do
  return { method := "GET", target := "/sign_out?peer_id=" ++ (← idText id) }

/-- The payload that a text is relayed as. -/
def payloadOf (text : Raw) : Except RequestError Bytes := do
  return Utf8.encode (← plainText text).toList

/-- Relaying a payload to a peer. The length is announced even of an empty payload. -/
def message (id peer : Int) (payload : Bytes) : Except RequestError Request := do
  return {
    method := "POST"
    target := "/message?peer_id=" ++ (← idText id) ++ "&to=" ++ (← idText peer)
    headers := [("Content-Length", toString payload.length), ("Content-Type", "text/plain")]
    body := payload }

end Request

end Rendezvous.Wire
