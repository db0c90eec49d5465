import Rendezvous.Numeral.Integer

/-!
# Settings

What a client is configured with, the defaults, and the checks that settings pass before they
are used.
-/

namespace Rendezvous

/-- The settings of a client. -/
structure Config where
  /-- The host of the server, a name or an address written out. -/
  server : String
  port : Int
  /-- The name that other peers see. -/
  clientName : String
  /-- Seconds to wait before a refused sign-in is tried again. -/
  reconnectDelay : Float
  /-- How many bytes of an incomplete response are held. -/
  maxResponseSize : Int
  /-- The name of the level that records must reach; none where an option asks for a level and
  leaves out which. -/
  logLevel : Option String

namespace Config

/-- The port where none is given. -/
def defaultPort : Int := 8888

/-- A client's name where none is given: the user at the machine. -/
def defaultName (user : Option String) (machine : String) : String :=
  user.getD "user" ++ "@" ++ machine

/-- The settings of a named client where nothing else is given. -/
def standard (clientName : String) : Config where
  server := "localhost"
  port := defaultPort
  clientName
  reconnectDelay := 2
  maxResponseSize := 1048576
  logLevel := some "INFO"

/-- The first fault of settings: a server, a port from 1 to 65535, a name, a positive delay and
room for a response are required, in this order. A delay that is no number is not found to be
too small. -/
def fault? (c : Config) : Option String :=
  if c.server.isEmpty then some "server must not be empty"
  else if !(0 < c.port && c.port < 65536) then
    some (match Numeral.integerText? c.port with
      | some port => s!"Invalid port: {port}. Must be 1-65535."
      | none => Numeral.tooManyDigits)
  else if c.clientName.isEmpty then some "client_name must not be empty"
  else if c.reconnectDelay ≤ 0 then some "reconnect_delay must be > 0"
  else if c.maxResponseSize < 1024 then some "max_response_size must be >= 1024"
  else none

end Config

end Rendezvous
