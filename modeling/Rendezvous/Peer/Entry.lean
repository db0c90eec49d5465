import Rendezvous.Numeral.Integer
import Rendezvous.Text.Split
import Rendezvous.Text.Utf8

/-!
# Directory entries

The server describes a peer by a line of three fields between commas: name, id and whether the
peer is connected. A listing is a run of such lines, each ended by a line feed.
-/

namespace Rendezvous.Peer

open Text

/-- The id before the server has assigned one. -/
def unsetId : Int := -1

/-- What one line says of a peer. -/
structure Entry where
  name : String
  id : Int
  connected : Bool := false
  deriving DecidableEq, Repr

namespace Entry

/-- The characters of a line end. -/
def isLineEnd (c : Char) : Bool := c = '\r' || c = '\n'

/-- The flag of the third field: a number other than zero. -/
def flagOf : List (List Char) → Bool
  | flag :: _ => (Numeral.integer? flag).any (· ≠ 0)
  | [] => false

/-- The entry of a line, line ends around it aside. The name must not be empty and the id must be
a number; a flag that is missing or no number means not connected. -/
def read? (line : List Char) : Option Entry :=
  match splitOn ',' (trimOf isLineEnd line) with
  | name :: id :: rest =>
    if name.isEmpty then none
    else (Numeral.integer? id).map fun id => ⟨String.ofList name, id, flagOf rest⟩
  | _ => none

end Entry

/-- The entries of a listing, malformed lines left out. What follows the last line feed is no
line. -/
def readListing (body : Bytes) : List Entry :=
  (splitOn '\n' (Utf8.decodeLossy body)).dropLast.filterMap Entry.read?

end Rendezvous.Peer
