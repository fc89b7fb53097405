import BucketTree.Key.Marker
import BucketTree.Proofs.Text.Affix

/-!
# Keys of a directory

A directory other than the root has a marker, and the keys below it start with its key and a
separator. A marker suffix without separators keeps the marker apart from the keys below the
directory.
-/

set_option autoImplicit false

namespace BucketTree.Key

variable {suffix : String} {key : Key}

/-- The marker of a directory other than the root. -/
theorem marker_eq (hkey : key ≠ root) : marker suffix key = .ok (key ++ suffix) := by
  unfold marker
  rw [if_neg fun h => hkey (eq_of_beq h)]

/-- The prefix of the keys below a directory other than the root. -/
theorem directoryPrefix_eq (hkey : key ≠ root) : directoryPrefix key = key ++ "/" := by
  unfold directoryPrefix
  rw [if_neg fun h => hkey (String.isEmpty_iff.1 h)]
  rfl

/-- A directory is an ancestor of the keys below it. -/
theorem isAncestor_below (hkey : key ≠ root) (rest : String) :
    isAncestor key (key ++ "/" ++ rest) = true := by
  unfold isAncestor
  rw [directoryPrefix_eq hkey, Text.beginsWith_append, Bool.true_and, bne_iff_ne]
  intro heq
  have hlength := congrArg String.length heq
  simp only [String.length_append] at hlength
  have hseparator : "/".length = 1 := rfl
  omega

/-- When the concatenation of two texts starts with a separator, the first text does, unless it is
empty. -/
theorem separator_append_eq {rest first second : String} (h : "/" ++ rest = first ++ second) :
    first = "" ∨ ∃ tail, first = "/" ++ tail := by
  have hsingleton : String.singleton separator ++ rest = first ++ second := h
  exact Text.singleton_append_eq hsingleton

/-- For a key below the directory `a` that starts with `b`, either `b` is below `a` too, or `a`
starts with `b`. -/
theorem below_eq_append {a b rest other : String} (h : a ++ "/" ++ rest = b ++ other) :
    (∃ tail, b = a ++ "/" ++ tail) ∨ ∃ middle, a = b ++ middle ∧ other = middle ++ "/" ++ rest := by
  rw [String.append_assoc] at h
  -- one of `a` and `b` starts with the other
  rcases Text.append_eq_append h with ⟨middle, hb, hmiddle⟩ | ⟨middle, ha, hother⟩
  · rcases separator_append_eq hmiddle with rfl | ⟨tail, rfl⟩
    · refine Or.inr ⟨"", ?_, ?_⟩
      · rw [hb, String.append_empty, String.append_empty]
      · rw [String.empty_append, hmiddle, String.empty_append]
    · exact Or.inl ⟨tail, by rw [hb, String.append_assoc]⟩
  · exact Or.inr ⟨middle, ha, by rw [hother, String.append_assoc]⟩

/-- A key below a directory is not its marker. -/
theorem below_ne_marker (hsuffix : separator ∉ suffix.toList) (key : Key) (rest : String) :
    key ++ "/" ++ rest ≠ key ++ suffix := by
  intro heq
  rw [String.append_assoc, String.append_right_inj] at heq
  apply hsuffix
  rw [← heq]
  simp [separator]

end BucketTree.Key
