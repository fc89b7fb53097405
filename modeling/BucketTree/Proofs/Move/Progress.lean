import BucketTree.Proofs.Store.Contents

/-!
# Moves in progress

`Progress` describes the contents in the middle of a move: the objects moved so far are at their new
keys only, one more may have been copied, and every other key is unchanged. Copying an object and
deleting its source preserve it, as long as the keys of the object are not in use by the moves
before.
-/

set_option autoImplicit false

namespace BucketTree

/-- The contents after the pairs `moved` have moved and, optionally, one more was copied. -/
structure Progress (before : Contents) (moved : List (Key × Key)) (copied : Option (Key × Key))
    (after : Contents) : Prop where
  gone : ∀ a b, (a, b) ∈ moved → after a = none
  arrived : ∀ a b, (a, b) ∈ moved → after b = before a
  copied_arrived : ∀ a b, copied = some (a, b) → after b = before a
  kept : ∀ key, (∀ a b, (a, b) ∈ moved → key ≠ a ∧ key ≠ b) →
    (∀ a b, copied = some (a, b) → key ≠ b) → after key = before key

/-- The contents between the copy of an object and the deletion of its source. -/
def halfway (before : Contents) (key newKey : Key) : Contents :=
  Function.update before newKey (before key)

theorem halfway_source {before : Contents} {key newKey : Key} (hne : key ≠ newKey) :
    halfway before key newKey key = before key :=
  Function.update_of_ne hne _ _

/-- The contents after an object has moved. -/
def movedTo (before : Contents) (key newKey : Key) : Contents :=
  Function.update (halfway before key newKey) key none

/-- The keys of a pair are different from those of the pairs moved so far. -/
def IsFresh (moved : List (Key × Key)) (a b : Key) : Prop :=
  ∀ a' b', (a', b') ∈ moved → a ≠ a' ∧ a ≠ b' ∧ b ≠ a' ∧ b ≠ b'

namespace Progress

variable {before after : Contents} {moved : List (Key × Key)} {copied : Option (Key × Key)}
  {a b : Key}

/-- The start of a move. -/
theorem start (before : Contents) : Progress before [] none before :=
  ⟨fun _ _ h => absurd h List.not_mem_nil, fun _ _ h => absurd h List.not_mem_nil,
    fun _ _ h => absurd h.symm (Option.some_ne_none _), fun _ _ _ => rfl⟩

/-- Without pairs nothing has changed. -/
theorem eq_before (h : Progress before [] none after) : after = before := by
  funext key
  apply h.kept key
  · intro a b hab
    exact absurd hab List.not_mem_nil
  · intro a b hab
    exact absurd hab.symm (Option.some_ne_none _)

/-- The old key of a fresh pair is unchanged. -/
theorem source_kept (h : Progress before moved none after) (hfresh : IsFresh moved a b) :
    after a = before a := by
  apply h.kept a
  · intro a' b' hab
    exact ⟨(hfresh a' b' hab).1, (hfresh a' b' hab).2.1⟩
  · intro a' b' hab
    exact absurd hab.symm (Option.some_ne_none _)

/-- The new key of a fresh pair is unchanged. -/
theorem image_kept (h : Progress before moved none after) (hfresh : IsFresh moved a b) :
    after b = before b := by
  apply h.kept b
  · intro a' b' hab
    exact ⟨(hfresh a' b' hab).2.2.1, (hfresh a' b' hab).2.2.2⟩
  · intro a' b' hab
    exact absurd hab.symm (Option.some_ne_none _)

/-- Copying the object of a fresh pair. -/
theorem copy (h : Progress before moved none after) (hfresh : IsFresh moved a b) :
    Progress before moved (some (a, b)) (halfway after a b) := by
  unfold halfway
  refine ⟨?_, ?_, ?_, ?_⟩
  · intro a' b' hab
    rw [Function.update_of_ne (hfresh a' b' hab).2.2.1.symm]
    exact h.gone a' b' hab
  · intro a' b' hab
    rw [Function.update_of_ne (hfresh a' b' hab).2.2.2.symm]
    exact h.arrived a' b' hab
  · rintro a' b' hab
    cases hab
    rw [Function.update_self]
    exact h.source_kept hfresh
  · intro key hmoved hcopied
    rw [Function.update_of_ne (hcopied a b rfl)]
    apply h.kept key hmoved
    intro a' b' hab
    exact absurd hab.symm (Option.some_ne_none _)

/-- Deleting the source of the copied object. -/
theorem delete (h : Progress before moved (some (a, b)) after) (hne : a ≠ b)
    (hfresh : IsFresh moved a b) :
    Progress before (moved ++ [(a, b)]) none (Function.update after a none) := by
  refine ⟨?_, ?_, ?_, ?_⟩
  · intro a' b' hab
    rw [Function.update_apply]
    split
    · rfl
    next hne' =>
      -- the key is another one than that of the source just deleted
      rcases List.mem_append.1 hab with hab | hab
      · exact h.gone a' b' hab
      · cases List.mem_singleton.1 hab
        exact absurd rfl hne'
  · intro a' b' hab
    rcases List.mem_append.1 hab with hab | hab
    · rw [Function.update_of_ne (hfresh a' b' hab).2.1.symm]
      exact h.arrived a' b' hab
    · cases List.mem_singleton.1 hab
      rw [Function.update_of_ne hne.symm]
      exact h.copied_arrived a b rfl
  · intro a' b' hab
    exact absurd hab.symm (Option.some_ne_none _)
  · intro key hmoved hcopied
    have hlast := hmoved a b (List.mem_append_right _ (List.mem_singleton.2 rfl))
    rw [Function.update_of_ne hlast.1]
    apply h.kept key
    · intro a' b' hab
      exact hmoved a' b' (List.mem_append_left _ hab)
    · intro a' b' hab
      cases hab
      exact hlast.2

/-- The bytes of an object are at its old key or at its new one, unless the object was replaced at a
new key of another one. -/
theorem bytes_kept (h : Progress before moved copied after) {key : Key} {bytes : Bytes}
    (hkey : before key = some bytes) :
    after key = some bytes ∨ (∃ image, (key, image) ∈ moved ∧ after image = some bytes) ∨
      ∃ a, ((a, key) ∈ moved ∨ copied = some (a, key)) ∧ after key = before a := by
  by_cases hold : ∃ image, (key, image) ∈ moved
  · obtain ⟨image, himage⟩ := hold
    exact Or.inr (Or.inl ⟨image, himage, by rw [h.arrived key image himage, hkey]⟩)
  · by_cases hnew : ∃ a, (a, key) ∈ moved ∨ copied = some (a, key)
    · obtain ⟨a, ha⟩ := hnew
      refine Or.inr (Or.inr ⟨a, ha, ?_⟩)
      rcases ha with ha | ha
      · exact h.arrived a key ha
      · exact h.copied_arrived a key ha
    · -- the key is neither an old one nor a new one
      apply Or.inl
      rw [← hkey]
      apply h.kept key
      · intro a b hab
        constructor
        · rintro rfl
          exact hold ⟨b, hab⟩
        · rintro rfl
          exact hnew ⟨a, Or.inl hab⟩
      · rintro a b hab rfl
        exact hnew ⟨a, Or.inr hab⟩

end Progress

end BucketTree
