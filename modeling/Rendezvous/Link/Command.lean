import Rendezvous.Host
import Rendezvous.Wire.Framer

/-!
# The command link

Short exchanges over one socket: a request is queued and the socket dialled, the request is
written when the connection is there, one response is read, and the socket is closed. At most one
exchange is in flight.
-/

namespace Rendezvous

/-- What an exchange is for. -/
inductive Exchange where
  | signIn
  | relay
  | signOut
  deriving DecidableEq, Repr

/-- The command socket, the bytes received and not yet read, the request not yet written, and the
exchange in flight. -/
structure CommandLink where
  socket : Nat
  framer : Wire.Framer
  pending : Option Bytes := none
  exchange : Option Exchange := none
  deriving DecidableEq, Repr

namespace CommandLink

variable {ν : Type}

/-- Whether an exchange is in flight. -/
def isBusy (l : CommandLink) : Bool := l.exchange.isSome

/-- Queues a request and dials. Refused while an exchange is in flight; where the socket is not
dialled, nothing stays queued. -/
def start (l : CommandLink) (what : Exchange) (bytes : Bytes) (address : Address)
    (h : Host ν) : Bool × CommandLink × Host ν :=
  if l.isBusy then (false, l, h)
  else
    let l := { l with framer := l.framer.reset }
    match h.connect l.socket address with
    | (true, h) => (true, { l with pending := some bytes, exchange := some what }, h)
    | (false, h) => (false, { l with pending := none, exchange := none }, h)

/-- What came of writing a queued request. -/
inductive Flush where
  | idle
  | written (size : Nat)
  | failed
  deriving DecidableEq, Repr

/-- Writes the queued request, once. -/
def flush (l : CommandLink) (h : Host ν) : Flush × CommandLink × Host ν :=
  match l.pending with
  | none => (.idle, l, h)
  | some bytes =>
    match h.send l.socket bytes with
    | (true, h) => (.written bytes.length, { l with pending := none }, h)
    | (false, h) => (.failed, { l with pending := none }, h)

/-- Takes received bytes. A complete response ends the exchange and closes the socket. -/
def receive (l : CommandLink) (bytes : Bytes) (h : Host ν) :
    Except Wire.FramingError (Option (Option Exchange × Wire.Response)) × CommandLink × Host ν :=
  match (l.framer.feed bytes).poll with
  | (.error e, framer) => (.error e, { l with framer }, h)
  | (.ok none, framer) => (.ok none, { l with framer }, h)
  | (.ok (some response), framer) =>
    (.ok (some (l.exchange, response)), { l with framer := framer.reset, exchange := none },
      h.close l.socket)

/-- Forgets the exchange in flight, and gives it. -/
def abort (l : CommandLink) : Option Exchange × CommandLink :=
  (l.exchange, { l with exchange := none, pending := none, framer := l.framer.reset })

/-- Closes the socket and forgets the exchange. -/
def close (l : CommandLink) (h : Host ν) : CommandLink × Host ν := (l.abort.2, h.close l.socket)

end CommandLink

end Rendezvous
