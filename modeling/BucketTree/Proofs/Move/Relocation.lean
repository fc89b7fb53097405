import BucketTree.Proofs.Key.Directory
import BucketTree.Proofs.Store.Contents

/-!
# Keys under a rename

`Relocates` relates a key to its new key. For a file this is the source alone; for a directory, each
key below it and its marker. Two directories are `Apart` when neither lies in the other; then no old
key is a new key, and different old keys have different new keys. The marker suffix contains no
separator, which keeps markers apart from the keys below a directory.
-/

set_option autoImplicit false

namespace BucketTree

/-- The new key of a key when `source` becomes `destination`. -/
inductive Relocates (suffix : String) (before : Contents) (source destination : Key) :
    Key → Key → Prop
  /-- The source is a file. -/
  | file (hsource : before source ≠ none) :
      Relocates suffix before source destination source destination
  /-- The source is a directory, and the key lies below it. -/
  | below (hsource : before source = none) (rest : String) :
      Relocates suffix before source destination (source ++ "/" ++ rest)
        (destination ++ "/" ++ rest)
  /-- The source is a directory, and the key is that of its marker. -/
  | marker (hsource : before source = none) :
      Relocates suffix before source destination (source ++ suffix) (destination ++ suffix)

/-- Two directories, neither of which is in the other, and a marker suffix without separators. -/
structure Apart (suffix : String) (source destination : Key) : Prop where
  ne : source ≠ destination
  not_below : ∀ rest, destination ≠ source ++ "/" ++ rest
  not_above : ∀ rest, source ≠ destination ++ "/" ++ rest
  separator_not_mem : Key.separator ∉ suffix.toList

namespace Apart

variable {suffix : String} {source destination : Key}

theorem symm (h : Apart suffix source destination) : Apart suffix destination source :=
  ⟨h.ne.symm, h.not_above, h.not_below, h.separator_not_mem⟩

/-- No key lies below both directories. -/
theorem below_ne_below (h : Apart suffix source destination) (rest other : String) :
    source ++ "/" ++ rest ≠ destination ++ "/" ++ other := by
  intro heq
  rcases Key.below_eq_append (heq.trans String.append_assoc) with
    ⟨tail, hbelow⟩ | ⟨middle, habove, hother⟩
  · exact h.not_below tail hbelow
  · rw [String.append_assoc] at hother
    rcases Key.separator_append_eq hother with rfl | ⟨tail, rfl⟩
    · exact h.ne (by rw [habove, String.append_empty])
    · exact h.not_above tail (by rw [habove, String.append_assoc])

/-- A key below one directory is not the marker of the other. -/
theorem below_ne_marker (h : Apart suffix source destination) (rest : String) :
    source ++ "/" ++ rest ≠ destination ++ suffix := by
  intro heq
  rcases Key.below_eq_append heq with ⟨tail, hbelow⟩ | ⟨middle, -, hsuffix⟩
  · exact h.not_below tail hbelow
  · apply h.separator_not_mem
    rw [hsuffix]
    simp [Key.separator]

end Apart

namespace Relocates

variable {suffix : String} {before : Contents} {source destination a b a' b' : Key}

/-- Keys are equal exactly when their new keys are. -/
theorem source_eq_iff (h : Relocates suffix before source destination a b)
    (h' : Relocates suffix before source destination a' b')
    (hapart : before source = none → Apart suffix source destination) : a = a' ↔ b = b' := by
  cases h with
  | file hsource =>
      cases h' with
      | file => exact ⟨fun _ => rfl, fun _ => rfl⟩
      | below hnone rest => exact absurd hnone hsource
      | marker hnone => exact absurd hnone hsource
  | below hsource rest =>
      cases h' with
      | file hobject => exact absurd hsource hobject
      | below _ rest' => rw [String.append_right_inj, String.append_right_inj]
      | marker _ =>
          have hne := fun dir => Key.below_ne_marker (hapart hsource).separator_not_mem dir rest
          exact ⟨fun heq => absurd heq (hne _), fun heq => absurd heq (hne _)⟩
  | marker hsource =>
      cases h' with
      | file hobject => exact absurd hsource hobject
      | below _ rest' =>
          have hne := fun dir => Key.below_ne_marker (hapart hsource).separator_not_mem dir rest'
          exact ⟨fun heq => absurd heq.symm (hne _), fun heq => absurd heq.symm (hne _)⟩
      | marker _ => exact ⟨fun _ => rfl, fun _ => rfl⟩

/-- No old key is a new key. -/
theorem source_ne_image (h : Relocates suffix before source destination a b)
    (h' : Relocates suffix before source destination a' b') (hne : source ≠ destination)
    (hapart : before source = none → Apart suffix source destination) : a ≠ b' := by
  cases h with
  | file hsource =>
      cases h' with
      | file => exact hne
      | below hnone rest => exact absurd hnone hsource
      | marker hnone => exact absurd hnone hsource
  | below hsource rest =>
      cases h' with
      | file hobject => exact absurd hsource hobject
      | below _ rest' => exact (hapart hsource).below_ne_below rest rest'
      | marker _ => exact (hapart hsource).below_ne_marker rest
  | marker hsource =>
      cases h' with
      | file hobject => exact absurd hsource hobject
      | below _ rest' => exact ((hapart hsource).symm.below_ne_marker rest').symm
      | marker _ => exact fun heq => hne ((String.append_left_inj _).1 heq)

end Relocates

end BucketTree
