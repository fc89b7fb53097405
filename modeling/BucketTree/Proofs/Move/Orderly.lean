import BucketTree.Proofs.Move.Progress
import BucketTree.Proofs.Move.Relocation

/-!
# Orderly moves

A move is `Orderly` when every object goes to its key under `Relocates`, and the marker of a
directory after everything below it. The checks of a rename make its ends `Renamable`; each further
object then has keys that no earlier one uses, so that copies and deletions keep the move orderly.
An orderly move loses no bytes, and keeps the marker while objects below the directory are left.
-/

set_option autoImplicit false

namespace BucketTree

/-- The conditions on the ends of a rename after its checks. -/
structure Renamable (suffix : String) (overwrite : Bool) (before : Contents)
    (source destination : Key) : Prop where
  source_ne_root : source ≠ Key.root
  destination_ne_root : destination ≠ Key.root
  ne : source ≠ destination
  apart : before source = none → Apart suffix source destination
  below_free : before source = none → ∀ rest, before (destination ++ "/" ++ rest) = none
  marker_free : before source = none → before (destination ++ suffix) = none
  replaced : before source ≠ none → before destination ≠ none → overwrite = true

/-- A move in progress that moves existing objects to their keys under `Relocates`, the marker
last. -/
structure Orderly (suffix : String) (before : Contents) (source destination : Key)
    (moved : List (Key × Key)) (copied : Option (Key × Key)) (after : Contents) : Prop
    extends Progress before moved copied after where
  relocates : ∀ a b, (a, b) ∈ moved ∨ copied = some (a, b) →
    Relocates suffix before source destination a b
  present : ∀ a b, (a, b) ∈ moved ∨ copied = some (a, b) → before a ≠ none
  marker_last : before source = none → ∀ b rest, (source ++ suffix, b) ∈ moved →
    before (source ++ "/" ++ rest) ≠ none → ∃ image, (source ++ "/" ++ rest, image) ∈ moved

section Ends

variable {suffix : String} {overwrite : Bool} {before after : Contents} {source destination : Key}
  {moved : List (Key × Key)} {copied : Option (Key × Key)} {a b : Key}

/-- The new key of an object of a directory is free. -/
theorem Renamable.image_free (hr : Renamable suffix overwrite before source destination)
    (hdirectory : before source = none) (h : Relocates suffix before source destination a b) :
    before b = none := by
  cases h with
  | file hsource => exact absurd hdirectory hsource
  | below _ rest => exact hr.below_free hdirectory rest
  | marker _ => exact hr.marker_free hdirectory

namespace Orderly

/-- The start of a move. -/
theorem start : Orderly suffix before source destination [] none before where
  toProgress := Progress.start before
  relocates := by rintro a b (h | h) <;> cases h
  present := by rintro a b (h | h) <;> cases h
  marker_last := by
    intro _ b rest h
    cases h

/-- The state of a moved object. -/
theorem of_mem (h : Orderly suffix before source destination moved copied after)
    (hm : (a, b) ∈ moved) :
    Relocates suffix before source destination a b ∧ before a ≠ none ∧ after a = none ∧
      after b = before a :=
  ⟨h.relocates a b (Or.inl hm), h.present a b (Or.inl hm), h.gone a b hm, h.arrived a b hm⟩

/-- The keys of an object that has not moved are not among those of the moved ones. -/
theorem isFresh (h : Orderly suffix before source destination moved copied after)
    (hr : Renamable suffix overwrite before source destination)
    (hab : Relocates suffix before source destination a b) (hnew : ∀ b', (a, b') ∉ moved) :
    IsFresh moved a b := by
  intro a' b' hm
  have hab' := (h.of_mem hm).1
  have hne : a ≠ a' := by
    rintro rfl
    exact hnew b' hm
  exact ⟨hne, hab.source_ne_image hab' hr.ne hr.apart,
    (hab'.source_ne_image hab hr.ne hr.apart).symm,
    fun heq => hne ((hab.source_eq_iff hab' hr.apart).2 heq)⟩

/-- Copying an object to its new key keeps the move orderly. -/
theorem copy (h : Orderly suffix before source destination moved none after)
    (hr : Renamable suffix overwrite before source destination)
    (hab : Relocates suffix before source destination a b) (hpresent : before a ≠ none)
    (hnew : ∀ b', (a, b') ∉ moved) :
    Orderly suffix before source destination moved (some (a, b)) (halfway after a b) where
  toProgress := h.toProgress.copy (h.isFresh hr hab hnew)
  relocates := by
    rintro a' b' (hm | hc)
    · exact h.relocates a' b' (Or.inl hm)
    · cases hc
      exact hab
  present := by
    rintro a' b' (hm | hc)
    · exact h.present a' b' (Or.inl hm)
    · cases hc
      exact hpresent
  marker_last := h.marker_last

/-- Deleting the source of the copied object keeps the move orderly; for the marker, provided that
nothing is left below the directory. -/
theorem delete (h : Orderly suffix before source destination moved (some (a, b)) after)
    (hr : Renamable suffix overwrite before source destination) (hnew : ∀ b', (a, b') ∉ moved)
    (hlast : before source = none → a = source ++ suffix → ∀ rest,
      before (source ++ "/" ++ rest) ≠ none → ∃ image, (source ++ "/" ++ rest, image) ∈ moved) :
    Orderly suffix before source destination (moved ++ [(a, b)]) none
      (Function.update after a none) where
  toProgress := by
    have hab := h.relocates a b (Or.inr rfl)
    exact h.toProgress.delete (hab.source_ne_image hab hr.ne hr.apart) (h.isFresh hr hab hnew)
  relocates := by
    rintro a' b' (hm | hc)
    · rcases List.mem_append.1 hm with hm | hm
      · exact h.relocates a' b' (Or.inl hm)
      · cases List.mem_singleton.1 hm
        exact h.relocates a b (Or.inr rfl)
    · cases hc
  present := by
    rintro a' b' (hm | hc)
    · rcases List.mem_append.1 hm with hm | hm
      · exact h.present a' b' (Or.inl hm)
      · cases List.mem_singleton.1 hm
        exact h.present a b (Or.inr rfl)
    · cases hc
  marker_last := by
    intro hdirectory b' rest hm hrest
    have hbelow : ∃ image, (source ++ "/" ++ rest, image) ∈ moved := by
      rcases List.mem_append.1 hm with hm | hm
      · exact h.marker_last hdirectory b' rest hm hrest
      · cases List.mem_singleton.1 hm
        exact hlast hdirectory rfl rest hrest
    obtain ⟨image, himage⟩ := hbelow
    exact ⟨image, List.mem_append_left _ himage⟩

/-- The object that was copied last is still at its old key. -/
theorem copied_kept (h : Orderly suffix before source destination moved (some (a, b)) after)
    (hr : Renamable suffix overwrite before source destination) (hnew : ∀ b', (a, b') ∉ moved) :
    after a = before a := by
  have hab := h.relocates a b (Or.inr rfl)
  have hfresh := h.isFresh hr hab hnew
  apply h.kept a
  · intro a' b' hm
    exact ⟨(hfresh a' b' hm).1, (hfresh a' b' hm).2.1⟩
  · rintro a' b' hc
    cases hc
    exact hab.source_ne_image hab hr.ne hr.apart

/-- No bytes are lost, except those of a file that is replaced. -/
theorem bytes_safe (h : Orderly suffix before source destination moved copied after)
    (hr : Renamable suffix overwrite before source destination) {key : Key} {bytes : Bytes}
    (hkey : before key = some bytes) :
    after key = some bytes ∨
      (∃ image, Relocates suffix before source destination key image ∧
        after image = some bytes) ∨
      (overwrite = true ∧ before source ≠ none ∧ key = destination ∧
        after destination = before source) := by
  rcases h.bytes_kept hkey with hold | ⟨image, hm, himage⟩ | ⟨a, ha, hreplaced⟩
  · exact Or.inl hold
  · exact Or.inr (Or.inl ⟨image, h.relocates key image (Or.inl hm), himage⟩)
  · -- the key was taken before the move, so only a file can have come to it
    have hrel := h.relocates a key ha
    have htaken : before key ≠ none := by
      rw [hkey]
      exact Option.some_ne_none bytes
    cases hrel with
    | file hsource =>
        exact Or.inr (Or.inr ⟨hr.replaced hsource htaken, hsource, rfl, hreplaced⟩)
    | below hsource rest => exact absurd (hr.below_free hsource rest) htaken
    | marker hsource => exact absurd (hr.marker_free hsource) htaken

/-- The marker stays while objects below the directory are left. -/
theorem marker_kept (h : Orderly suffix before source destination moved copied after)
    (hr : Renamable suffix overwrite before source destination)
    (hdirectory : before source = none) {rest : String}
    (hbefore : before (source ++ "/" ++ rest) ≠ none)
    (hafter : after (source ++ "/" ++ rest) ≠ none) :
    after (source ++ suffix) = before (source ++ suffix) := by
  have hmarker : Relocates suffix before source destination (source ++ suffix)
      (destination ++ suffix) := .marker hdirectory
  apply h.kept _
  · intro a b hm
    refine ⟨?_, hmarker.source_ne_image (h.relocates a b (Or.inl hm)) hr.ne hr.apart⟩
    rintro rfl
    -- the marker would have moved, and so would the object that is left
    obtain ⟨image, himage⟩ := h.marker_last hdirectory b rest hm hbefore
    exact hafter (h.gone _ image himage)
  · intro a b hc
    exact hmarker.source_ne_image (h.relocates a b (Or.inr hc)) hr.ne hr.apart

end Orderly

end Ends

end BucketTree
