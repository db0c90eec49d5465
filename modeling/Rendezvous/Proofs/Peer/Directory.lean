import Mathlib.Logic.Function.Basic
import Rendezvous.Proofs.Peer.Listing

/-!
# The directory as a map

Whatever is done to a directory, it holds and answers what a plain map from ids to names does that
leaves its owner out. A listing that it takes over is reported as the entries that make up the
directory afterwards.
-/

namespace Rendezvous.Peer

/-- What is done to a directory. -/
inductive Update where
  | add (id : Int) (name : String)
  | remove (id : Int)
  | rebuild (entries : List Entry)
  | clear
  deriving DecidableEq, Repr

/-- What an update is answered with. -/
inductive Reply where
  /-- Whether a name was stored. -/
  | stored (accepted : Bool)
  /-- The name that was dropped, if there was one. -/
  | dropped (name : Option String)
  /-- The entries of a listing that were stored. -/
  | listed (entries : List Entry)
  | done
  deriving DecidableEq, Repr

/-- The replies to updates that are made after one another, and what they leave. -/
def makeAll {σ : Type} (make : σ → Update → Reply × σ) : σ → List Update → List Reply × σ
  | s, [] => ([], s)
  | s, update :: rest =>
    let (reply, s) := make s update
    let (replies, s) := makeAll make s rest
    (reply :: replies, s)

namespace Directory

/-- A directory in which nobody is known yet. -/
def fresh (owner : Int) : Directory := { selfId := owner }

/-- One update of a directory. -/
def update (d : Directory) : Update → Reply × Directory
  | .add id name =>
    let (accepted, d) := d.add id name
    (.stored accepted, d)
  | .remove id =>
    let (name, d) := d.remove id
    (.dropped name, d)
  | .rebuild entries =>
    let (entries, d) := d.rebuild entries
    (.listed entries, d)
  | .clear => (.done, .empty)

/-- Entries that are added after one another. -/
def replay (d : Directory) (entries : List Entry) : Directory :=
  entries.foldl (fun d entry ↦ (d.add entry.id entry.name).2) d

/-- Adding what was stored of entries comes to the same as adding them all. -/
theorem replay_addAll (d : Directory) (entries : List Entry) :
    d.replay (d.addAll entries).1 = (d.addAll entries).2 := by
  induction entries generalizing d with
  | nil => rfl
  | cons entry rest ih =>
    by_cases hown : entry.id = d.selfId
    · simpa [addAll, hown] using ih d
    · have hentry := add_of_ne hown entry.name
      simp only [addAll, hentry, if_true]
      rw [replay, List.foldl_cons, hentry]
      exact ih { d with peers := d.peers.insert entry.id entry.name }

/-- What is reported of a listing makes up the directory that took it over. -/
theorem replay_rebuild (d : Directory) (entries : List Entry) :
    (fresh d.selfId).replay (d.rebuild entries).1 = (d.rebuild entries).2 :=
  replay_addAll (fresh d.selfId) entries

end Directory

/-! ### A map without its owner -/

/-- A plain map from ids to names, and the id that it leaves out. -/
structure Register where
  owner : Int
  names : Int → Option String

namespace Register

/-- A map of nobody. -/
def blank (owner : Int) : Register := ⟨owner, fun _ ↦ none⟩

/-- The map with another name, or none, for an id. -/
def put (r : Register) (id : Int) (name : Option String) : Register :=
  { r with names := Function.update r.names id name }

@[simp] private theorem names_put (r : Register) (id : Int) (name : Option String) (other : Int) :
    (r.put id name).names other = if id = other then name else r.names other := by
  simp only [put, Function.update_apply, eq_comm]

@[simp] private theorem owner_put (r : Register) (id : Int) (name : Option String) :
    (r.put id name).owner = r.owner := rfl

/-- One update of the map: the owner is not stored, and a listing gives everybody else the last
name that it has for them. -/
def update (r : Register) : Update → Reply × Register
  | .add id name =>
    if id = r.owner then (.stored false, r) else (.stored true, r.put id (some name))
  | .remove id => (.dropped (r.names id), r.put id none)
  | .rebuild entries =>
    (.listed (entries.filter (·.id ≠ r.owner)), { r with
      names := fun id ↦
        if id = r.owner then none else (entries.findRev? (·.id = id)).map (·.name) })
  | .clear => (.done, blank unsetId)

end Register

/-! ### The directory and the map -/

/-- The directory holds what the map does, and the map leaves its owner out. -/
structure Directory.Refines (d : Directory) (r : Register) : Prop where
  owner : d.selfId = r.owner
  names : ∀ id : Int, d.peers[id]? = r.names id
  absent : r.names r.owner = none

namespace Directory

variable {d : Directory} {r : Register}

private theorem refines_blank (owner : Int) : (fresh owner).Refines (.blank owner) where
  owner := rfl
  names _ := Std.ExtTreeMap.getElem?_empty
  absent := rfl

private theorem Refines.insert (h : d.Refines r) {id : Int} (hother : id ≠ r.owner)
    (name : String) :
    Refines { d with peers := d.peers.insert id name } (r.put id (some name)) where
  owner := h.owner
  names other := by
    rw [Std.ExtTreeMap.getElem?_insert, Register.names_put, h.names]
    simp only [Std.LawfulEqCmp.compare_eq_iff_eq]
  absent := by
    rw [Register.owner_put, Register.names_put, if_neg hother]
    exact h.absent

private theorem Refines.erase (h : d.Refines r) (id : Int) :
    Refines { d with peers := d.peers.erase id } (r.put id none) where
  owner := h.owner
  names other := by
    rw [Std.ExtTreeMap.getElem?_erase, Register.names_put, h.names]
    simp only [Std.LawfulEqCmp.compare_eq_iff_eq]
  absent := by
    rw [Register.owner_put, Register.names_put]
    split
    · rfl
    · exact h.absent

/-- An update is answered alike, and keeps the directory and the map together. -/
theorem Refines.update (h : d.Refines r) (u : Update) :
    (d.update u).1 = (r.update u).1 ∧ (d.update u).2.Refines (r.update u).2 := by
  cases u with
  | add id name =>
    by_cases hown : id = r.owner
    · have hrefused : d.add id name = (false, d) := if_pos (hown.trans h.owner.symm)
      rw [Directory.update, Register.update, hrefused, if_pos hown]
      exact ⟨rfl, h⟩
    · have hstored := add_of_ne (fun heq ↦ hown (heq.trans h.owner)) name
      rw [Directory.update, Register.update, hstored, if_neg hown]
      exact ⟨rfl, h.insert hown name⟩
  | remove id => exact ⟨congrArg Reply.dropped (h.names id), h.erase id⟩
  | rebuild entries =>
    refine ⟨?_, (selfId_addAll _ entries).trans h.owner, fun id ↦ ?_, if_pos rfl⟩
    · show Reply.listed (d.rebuild entries).1 = _
      rw [rebuild, fst_addAll, h.owner]
      rfl
    · show (d.rebuild entries).2.peers[id]? = _
      rw [getElem?_rebuild, h.owner]
      rfl
  | clear => exact ⟨rfl, refines_blank unsetId⟩

/-- So do any number of updates. -/
theorem Refines.makeAll (h : d.Refines r) (updates : List Update) :
    (Peer.makeAll Directory.update d updates).1 = (Peer.makeAll Register.update r updates).1 ∧
      (Peer.makeAll Directory.update d updates).2.Refines
        (Peer.makeAll Register.update r updates).2 := by
  induction updates generalizing d r with
  | nil => exact ⟨rfl, h⟩
  | cons u rest ih =>
    obtain ⟨hreply, hnext⟩ := h.update u
    obtain ⟨hreplies, hlast⟩ := ih hnext
    exact ⟨congrArg₂ List.cons hreply hreplies, hlast⟩

/-- Whatever is done to a directory after it was made, it answers and holds what the map does, and
its owner is not in it. Of a listing the entries of others are reported, and nothing but these, one
after another, makes up the directory that has taken it over. -/
theorem refines_register (owner : Int) (updates : List Update) :
    let d := makeAll update (fresh owner) updates
    let r := makeAll Register.update (.blank owner) updates
    d.1 = r.1 ∧ d.2.selfId = r.2.owner ∧ (∀ id : Int, d.2.peers[id]? = r.2.names id) ∧
      d.2.selfId ∉ d.2.peers ∧
      ∀ entries, (d.2.rebuild entries).1 = entries.filter (·.id ≠ d.2.selfId) ∧
        (fresh d.2.selfId).replay (d.2.rebuild entries).1 = (d.2.rebuild entries).2 := by
  intro d r
  obtain ⟨hreplies, h⟩ := (refines_blank owner).makeAll updates
  refine ⟨hreplies, h.owner, h.names, ?_, fun entries ↦ ⟨?_, replay_rebuild _ entries⟩⟩
  · rw [Std.ExtTreeMap.mem_iff_isSome_getElem?, h.names, h.owner]
    simp [h.absent]
  · exact fst_addAll _ entries

/-- A listing may have its owner and one id under two names. -/
example :
    (makeAll update (fresh 7) [
      .rebuild [⟨"bob", 3, true⟩, ⟨"me", 7, true⟩, ⟨"rob", 3, true⟩], .remove 3, .add 7 "me"]).1 =
    [.listed [⟨"bob", 3, true⟩, ⟨"rob", 3, true⟩], .dropped (some "rob"), .stored false] := by
  decide +kernel

end Directory

end Rendezvous.Peer
