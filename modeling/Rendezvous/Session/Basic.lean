import Rendezvous.Link.Command
import Rendezvous.Link.Notify
import Rendezvous.Peer.Directory
import Rendezvous.Resolver
import Rendezvous.Retry

/-!
# Sessions

The client side of the rendezvous protocol. A session signs in under a name, keeps a long poll
open to hear of peers and of payloads they send, relays payloads of its own, and signs out. This
module holds what a session remembers, what its observer hears, and what a caller may ask of it.
-/

namespace Rendezvous

/-- The life of a session. -/
inductive Session.Phase where
  | disconnected
  | resolving
  | signingIn
  | connected
  | signingOut
  /-- Signing out as soon as the exchange in flight is over. -/
  | signingOutPending
  deriving DecidableEq, Repr

/-- The label of a phase. -/
def Session.Phase.name : Session.Phase → String
  | .disconnected => "disconnected"
  | .resolving => "resolving"
  | .signingIn => "signing_in"
  | .connected => "connected"
  | .signingOut => "signing_out"
  | .signingOutPending => "signing_out_pending"

/-- What a session remembers. -/
structure Session where
  retry : RetryTimer
  phase : Session.Phase := .disconnected
  address : Address := ⟨"", 0⟩
  clientName : Text.Raw := ⟨[]⟩
  selfId : Int := Peer.unsetId
  directory : Peer.Directory := {}
  command : Option CommandLink := none
  notify : Option NotifyLink := none
  resolver : Resolver := {}

namespace Session

/-- Whether the server has assigned an id. -/
def isConnected (s : Session) : Bool := s.selfId ≠ Peer.unsetId

/-- Whether an exchange of a connected session is in flight. -/
def isSending (s : Session) : Bool := s.phase = .connected && s.command.any CommandLink.isBusy

/-- The session under an id that the server assigned. -/
def assign (s : Session) (id : Int) : Session :=
  { s with selfId := id, directory := s.directory.setSelf id }

end Session

/-- The body of a relay by which a peer hangs up. -/
def hangUpToken : Bytes := Bytes.ofAscii "BYE"

/-- What the observer of a session hears. -/
inductive Event where
  /-- Signing in is complete; the id and the first listing of peers are known. -/
  | signedIn
  /-- The session is over, by signing out or by a failure. -/
  | disconnected
  /-- A peer joined, or was there at sign-in. -/
  | peerConnected (id : Int) (name : String)
  /-- A peer left or hung up. -/
  | peerDisconnected (id : Int)
  /-- A peer sent a payload. -/
  | message (id : Int) (payload : Bytes)
  /-- A relay is over; status zero means that it was delivered to the server. -/
  | messageSent (status : Int)
  /-- The server was not reached, or a connection was asked for at the wrong time. -/
  | connectionFailure
  deriving DecidableEq, Repr

/-- The kinds of event. -/
inductive Event.Kind where
  | signedIn
  | disconnected
  | peerConnected
  | peerDisconnected
  | message
  | messageSent
  | connectionFailure
  deriving DecidableEq, Repr

/-- The kind of an event. -/
def Event.kind : Event → Event.Kind
  | .signedIn => .signedIn
  | .disconnected => .disconnected
  | .peerConnected _ _ => .peerConnected
  | .peerDisconnected _ => .peerDisconnected
  | .message _ _ => .message
  | .messageSent _ => .messageSent
  | .connectionFailure => .connectionFailure

/-- What a caller may ask of a session, at any time. -/
inductive Call where
  /-- Sign in; what is left out comes from the settings. -/
  | connect (server : Option String) (port : Option Int) (name : Option Text.Raw)
  /-- Relay a text to a peer. -/
  | send (peer : Int) (text : Text.Raw)
  /-- Relay bytes to a peer. -/
  | sendBytes (peer : Int) (payload : Bytes)
  /-- Tell a peer that we hang up. -/
  | hangUp (peer : Int)
  /-- Leave the server. -/
  | signOut
  /-- Tear everything down and tell nobody. -/
  | close
  deriving DecidableEq, Repr

/-- A note in the log of a session: an event with the session as the observer found it, or a call
that the observer made, with its answer, if it came to one. -/
inductive Note where
  | heard (event : Event) (session : Session)
  | called (call : Call) (answer : Option Bool)

end Rendezvous
