import BucketTree.Proofs.Text.Affix
import BucketTree.Store.Bucket
import Mathlib.Data.List.Sort
import Mathlib.Logic.Function.Basic

/-!
# The contents of a bucket

The contents of a bucket are a map from keys to bytes. Storing and erasing an object are updates of
the map, and the map determines the list of keys, since two increasing lists with the same members
are equal.
-/

set_option autoImplicit false

namespace BucketTree

/-- A map from keys to the bytes of the objects. -/
abbrev Contents := Key → Option Bytes

namespace Bucket

/-- The contents of a bucket. -/
def contents (b : Bucket) : Contents := fun key => (b.find? key).map (·.content)

theorem contents_of_find? {b : Bucket} {key : Key} {object : StoredObject}
    (h : b.find? key = some object) : b.contents key = some object.content := by
  unfold contents
  rw [h]
  rfl

@[simp]
theorem contents_eq_none {b : Bucket} {key : Key} :
    b.contents key = none ↔ b.find? key = none := by
  unfold contents
  rw [Option.map_eq_none_iff]

/-- Storing an object updates the contents at its key. -/
@[simp]
theorem contents_insert (key : Key) (object : StoredObject) (b : Bucket) :
    (b.insert key object).contents = Function.update b.contents key (some object.content) := by
  funext other
  unfold contents
  rw [find?_insert, Function.update_apply]
  by_cases h : key = other
  · rw [if_pos h, if_pos h.symm]
    rfl
  · rw [if_neg h, if_neg (Ne.symm h)]

/-- Erasing an object updates the contents at its key. -/
@[simp]
theorem contents_erase (key : Key) (b : Bucket) :
    (b.erase key).contents = Function.update b.contents key none := by
  funext other
  unfold contents
  rw [find?_erase, Function.update_apply]
  by_cases h : key = other
  · rw [if_pos h, if_pos h.symm]
    rfl
  · rw [if_neg h, if_neg (Ne.symm h)]

/-! ## Keys -/

theorem findEntry_ne_none {key : Key} (entries : List (Key × StoredObject)) :
    findEntry key entries ≠ none ↔ key ∈ entries.map (·.1) := by
  induction entries with
  | nil => simp [findEntry]
  | cons head rest ih =>
      obtain ⟨k, object⟩ := head
      by_cases h : k = key
      · simp [findEntry, h]
      · simp [findEntry, h, Ne.symm h, ih]

/-- A key of the bucket is one where the contents have an object. -/
theorem mem_keys {key : Key} {b : Bucket} : key ∈ b.keys ↔ b.contents key ≠ none := by
  rw [Ne, contents_eq_none]
  exact (findEntry_ne_none b.entries).symm

theorem keys_increasing (b : Bucket) : b.keys.Pairwise (· < ·) :=
  List.pairwise_map.2 b.increasing

theorem keysUnder_increasing (under : String) (b : Bucket) :
    (b.keysUnder under).Pairwise (· < ·) :=
  b.keys_increasing.filter _

theorem mem_keysUnder {under : String} {key : Key} {b : Bucket} :
    key ∈ b.keysUnder under ↔ b.contents key ≠ none ∧ ∃ rest, key = under ++ rest := by
  unfold keysUnder
  rw [List.mem_filter, mem_keys, Text.beginsWith_iff]

theorem length_keysUnder_le (under : String) (b : Bucket) :
    (b.keysUnder under).length ≤ b.keys.length :=
  List.length_filter_le _ _

/-- The function `keysUnder` is empty when no object has a key with the given prefix. -/
theorem keysUnder_eq_nil {under : String} {b : Bucket}
    (h : ∀ rest, b.contents (under ++ rest) = none) : b.keysUnder under = [] := by
  refine List.eq_nil_iff_forall_not_mem.2 fun key hkey => ?_
  obtain ⟨hpresent, rest, rfl⟩ := mem_keysUnder.1 hkey
  exact hpresent (h rest)

/-- An increasing list with the members of `keysUnder` equals it. -/
theorem keysUnder_eq_of_mem {under : String} {b : Bucket} {keys : List Key}
    (hincreasing : keys.Pairwise (· < ·))
    (hmem : ∀ key, key ∈ keys ↔ b.contents key ≠ none ∧ ∃ rest, key = under ++ rest) :
    b.keysUnder under = keys := by
  apply List.Pairwise.eq_of_mem_iff (b.keysUnder_increasing under) hincreasing
  intro key
  rw [mem_keysUnder, hmem]

end Bucket

end BucketTree
