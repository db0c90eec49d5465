import Rendezvous.Host
import Rendezvous.Wire.Framer
import Rendezvous.Wire.Request

/-!
# The notify link

The long poll over one socket: a wait request is outstanding, and another is put in place after
every answer, on the same connection while it is open and over a new one otherwise.
-/

namespace Rendezvous

/-- The notify socket, the bytes received and not yet read, and whether a wait is outstanding. -/
structure NotifyLink where
  socket : Nat
  framer : Wire.Framer
  waiting : Bool := false
  deriving DecidableEq, Repr

namespace NotifyLink

variable {ν : Type}

/-- How the reading of received bytes ended: more may follow on the connection, the server closes
it, or the bytes cannot be framed. -/
inductive Outcome where
  | more
  | closing
  | failed (error : Wire.FramingError)
  deriving DecidableEq, Repr

/-- The complete responses at the front of a buffer, how the reading of them ended, and what is
left in the buffer. A response that announces a close is the last, and drops the rest. -/
def drain (f : Wire.Framer) : List Wire.Response × Outcome × Wire.Framer :=
  match _found : f.next? with
  | .error e => ([], .failed e, f)
  | .ok none => ([], .more, f)
  | .ok (some (response, rest)) =>
    if response.closes then ([response], .closing, f.reset)
    else
      let (responses, outcome, f) := drain { f with buffer := rest }
      (response :: responses, outcome, f)
termination_by f.buffer.length
decreasing_by exact Wire.Framer.length_lt_of_next? _found

/-- The bytes of a wait request. -/
def waitBytes (id : Int) : Except Wire.RequestError Bytes := do
  (← Wire.Request.wait id).encode

/-- Writes a wait request of an id on the open connection. -/
def issueWait (l : NotifyLink) (id : Int) (h : Host ν) :
    Except Wire.RequestError Bool × NotifyLink × Host ν :=
  match waitBytes id with
  | .error e => (.error e, l, h)
  | .ok request =>
    let (sent, h) := h.send l.socket request
    (.ok sent, { l with waiting := sent }, h)

/-- Puts the next wait of an id in place: on the connection while it is open, else by dialling
first. -/
def rearm (l : NotifyLink) (id : Int) (address : Address) (h : Host ν) :
    Except Wire.RequestError Bool × NotifyLink × Host ν :=
  if h.isClosed l.socket then
    let (dialled, h) := h.connect l.socket address
    (.ok dialled, { l with waiting := false }, h)
  else l.issueWait id h

/-- Takes received bytes, and gives the responses that are complete. -/
def receive (l : NotifyLink) (bytes : Bytes) (h : Host ν) :
    List Wire.Response × Outcome × NotifyLink × Host ν :=
  let (responses, outcome, framer) := drain (l.framer.feed bytes)
  let l := { l with framer, waiting := l.waiting && responses.isEmpty }
  (responses, outcome, l, if outcome = .closing then h.close l.socket else h)

/-- Forgets the wait and what was received. -/
def abort (l : NotifyLink) : NotifyLink := { l with waiting := false, framer := l.framer.reset }

/-- Closes the socket and forgets the wait. -/
def close (l : NotifyLink) (h : Host ν) : NotifyLink × Host ν := (l.abort, h.close l.socket)

end NotifyLink

end Rendezvous
