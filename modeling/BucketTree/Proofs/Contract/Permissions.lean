import BucketTree.Proofs.Key.WellFormed
import BucketTree.Proofs.Program.Contract
import BucketTree.Tree.Move

/-!
# Permissions of a tree

A tree reads, writes at the keys of its paths, deletes at the key of a path and at the keys that a
page shows below it, and moves such objects one by one. The definitions state what a contract has to
permit for each of these.
-/

set_option autoImplicit false

namespace BucketTree

/-- A request that does not change the store. -/
def Request.isReading : Request → Bool
  | .put _ _ => false
  | .delete _ => false
  | .copy _ _ => false
  | _ => true

namespace Contract

variable (c : Contract) (suffix : String)

/-- Every request that does not change the store is permitted. -/
def PermitsReading : Prop := ∀ request : Request, request.isReading = true → c.permits request

/-- A page that the contract trusts may show the key in a listing of the prefix `under`. -/
def Shows (under : String) (key : Key) : Prop :=
  ∃ request page keys, request.under.getD "" = under ∧ c.trusts (.list request) (some page) ∧
    page.keys = some keys ∧ key ∈ keys

/-- Every upload to the key is permitted. -/
def PermitsUploads (key : Key) : Prop := ∀ upload, c.permits (.put key upload)

/-- Reads are permitted, as well as uploads to the plain keys and empty objects at their markers. -/
structure PermitsFiles : Prop where
  reading : c.PermitsReading
  uploads : ∀ key, Key.IsPlain suffix key → c.PermitsUploads key
  markers : ∀ key, Key.IsPlain suffix key → c.permits (.put (key ++ suffix) (.ofBody (.fresh [])))

/-- The requests of a deletion at `key` are permitted. -/
structure PermitsRemoval (key : Key) : Prop where
  file : c.permits (.delete key)
  below : ∀ child, c.Shows (Key.directoryPrefix key) child → c.permits (.delete child)
  marker : c.permits (.delete (key ++ suffix))

/-- The requests of a move are permitted: a copy, or a read and a write, and the deletion of the
source. -/
structure PermitsMove (source destination : Key) : Prop where
  copy : c.permits (.copy source destination)
  put : ∀ body, c.trusts (.get source) body → c.permits (.put destination (.ofBody body))
  delete : c.permits (.delete source)

/-- The requests of a rename from `source` to `destination` are permitted. -/
structure PermitsRename (source destination : Key) : Prop where
  file : c.PermitsMove source destination
  below : ∀ child, c.Shows (Key.directoryPrefix source) child →
    c.PermitsMove child (Move.newKey source destination child)
  marker : c.PermitsMove (source ++ suffix) (destination ++ suffix)

/-- The requests of a deletion at the key of the path are permitted. -/
def PermitsDelete (t : Tree) (path : Value) : Prop :=
  ∀ key, t.resolve path = .ok key → key ≠ Key.root → c.PermitsRemoval t.suffix key

/-- The requests of a rename between the keys of the paths are permitted. -/
def PermitsRenaming (t : Tree) (source destination : Value) : Prop :=
  ∀ sourceKey destinationKey, t.resolve source = .ok sourceKey →
    t.resolve destination = .ok destinationKey → sourceKey ≠ Key.root →
      destinationKey ≠ Key.root → c.PermitsRename t.suffix sourceKey destinationKey

end Contract

end BucketTree
