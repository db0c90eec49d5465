import Rendezvous.Peer.Entry
import Std.Data.ExtTreeMap

/-!
# The peer directory

Who else is signed in, by id. The owner's own id is never stored, so that a listing can be taken
over unfiltered.
-/

namespace Rendezvous.Peer

/-- Names by id, in the order of the ids. -/
abbrev Roster := Std.ExtTreeMap Int String

/-- The peers known to the owner of an id. -/
structure Directory where
  selfId : Int := unsetId
  peers : Roster := ∅

namespace Directory

/-- Stores or renames a peer; refused for the owner's own id. -/
def add (d : Directory) (id : Int) (name : String) : Bool × Directory :=
  if id = d.selfId then (false, d) else (true, { d with peers := d.peers.insert id name })

/-- Drops a peer, and gives the name it had. -/
def remove (d : Directory) (id : Int) : Option String × Directory :=
  (d.peers[id]?, { d with peers := d.peers.erase id })

/-- Stores the entries of a listing after one another, and gives those that were stored. -/
def addAll (d : Directory) : List Entry → List Entry × Directory
  | [] => ([], d)
  | entry :: rest =>
    let (stored, d) := d.add entry.id entry.name
    let (others, d) := d.addAll rest
    (if stored then entry :: others else others, d)

/-- Replaces the contents by a listing. -/
def rebuild (d : Directory) (entries : List Entry) : List Entry × Directory :=
  { d with peers := ∅ }.addAll entries

/-- Takes another id as the owner's own. -/
def setSelf (d : Directory) (id : Int) : Directory := { d with selfId := id }

/-- Nobody is known, and no id is assigned. -/
def empty : Directory := {}

/-- The owner is not stored. -/
@[simp] theorem add_self (d : Directory) (name : String) : d.add d.selfId name = (false, d) :=
  if_pos rfl

/-- Whoever is not the owner is stored. -/
theorem add_of_ne {d : Directory} {id : Int} (h : id ≠ d.selfId) (name : String) :
    d.add id name = (true, { d with peers := d.peers.insert id name }) :=
  if_neg h

/-- Storing somebody leaves the owner. -/
@[simp] theorem selfId_add (d : Directory) (id : Int) (name : String) :
    (d.add id name).2.selfId = d.selfId := by
  rw [add]
  split <;> rfl

/-- Taking entries over leaves the owner. -/
@[simp] theorem selfId_addAll (d : Directory) (entries : List Entry) :
    (d.addAll entries).2.selfId = d.selfId := by
  induction entries generalizing d with
  | nil => rfl
  | cons entry rest ih => simp [addAll, ih]

/-- The entries that are stored are those of others, in order. -/
theorem fst_addAll (d : Directory) (entries : List Entry) :
    (d.addAll entries).1 = entries.filter (·.id ≠ d.selfId) := by
  induction entries generalizing d with
  | nil => rfl
  | cons entry rest ih =>
    by_cases h : entry.id = d.selfId
    · simp [addAll, ih, h, add]
    · simp [addAll, ih, h, add]

end Directory

end Rendezvous.Peer
