import BucketTree.Proofs.Contract.World
import BucketTree.Proofs.Store.Paging

/-!
# Sparing a marker

`Contract.sparing` permits every request but the deletion of one marker, and trusts pages that show
its key only under a prefix of it. It permits the removal and the rename of a directory, with
everything below, unless the marker is that of the directory or of a directory below it
(`Contract.sparing_permitsRemoval`, `Contract.sparing_permitsRename`): no path names a marker, and
the key of a marker starts with the prefix of a directory only when its own directory lies below
that one.
-/

set_option autoImplicit false

namespace BucketTree

namespace Contract

/-- The answers trusted of the store: a page shows the marker only in a listing of a prefix of
it. -/
def sparingTrusts (marker : Key) : (request : Request) → request.Answer → Prop
  | .list request, page => ∀ p keys, page = some p → p.keys = some keys → marker ∈ keys →
      ∃ rest, marker = request.under.getD "" ++ rest
  | _, _ => True

/-- The contract under which the object at `marker` is never deleted. -/
def sparing (marker : Key) : Contract :=
  ⟨fun request => request ≠ .delete marker, sparingTrusts marker⟩

end Contract

/-- An object is at the key. -/
def Contents.Holds (key : Key) (contents : Contents) : Prop := contents key ≠ none

namespace Contents.Holds

variable {marker key : Key} {contents : Contents}

theorem store (h : contents.Holds marker) (key : Key) (content : Bytes) :
    Holds marker (Function.update contents key (some content)) := by
  unfold Holds
  rw [Function.update_apply]
  split
  · exact Option.some_ne_none _
  · exact h

theorem erase (h : contents.Holds marker) (hkey : key ≠ marker) :
    Holds marker (Function.update contents key none) := by
  unfold Holds
  rwa [Function.update_of_ne hkey.symm]

end Contents.Holds

namespace Bucket

variable {marker : Key} {b b' : Bucket}

/-- A permitted request keeps the marker, and its answer is trusted. -/
theorem Answers.sparing {fails : Request → Fault → Prop} {request : Request}
    {outcome : Except Fault request.Answer} (h : Answers fails request b outcome b')
    (hpermits : (Contract.sparing marker).permits request) (hb : b.contents.Holds marker) :
    b'.contents.Holds marker ∧
      ∀ answer, outcome = .ok answer → (Contract.sparing marker).trusts request answer := by
  cases h with
  | failed hfault => exact ⟨hb, nofun⟩
  | absent hneeds hkey => exact ⟨hb, nofun⟩
  | head hkey => exact ⟨hb, fun _ _ => trivial⟩
  | get hkey => exact ⟨hb, fun _ _ => trivial⟩
  | put hcontent hstored =>
      rw [hstored]
      exact ⟨hb.store _ _, fun _ _ => trivial⟩
  | delete hkey herased =>
      rw [herased]
      exact ⟨hb.erase fun heq => hpermits (congrArg Request.delete heq), fun _ _ => trivial⟩
  | copy hkey hstored =>
      rw [hstored]
      exact ⟨hb.store _ _, fun _ _ => trivial⟩
  | list hsize =>
      refine ⟨hb, ?_⟩
      rintro _ ⟨⟩ _ keys ⟨⟩ hkeys hshown
      exact (mem_page_keys hkeys hshown).2
  | openRange hkey => exact ⟨hb, fun _ _ => trivial⟩

end Bucket

namespace Contract

variable {suffix : String} {marker key other source destination : Key}

theorem sparing_permitsReading (marker : Key) : (sparing marker).PermitsReading := by
  rintro request hreading rfl
  cases hreading

theorem sparing_protects (marker : Key) :
    (sparing marker).Protects (Contents.Holds marker) where
  reading := sparing_permitsReading marker
  streams _ _ _ := trivial
  answers := Bucket.Answers.sparing

/-- Uploads to every key are permitted. -/
theorem sparing_permitsUploads (marker key : Key) : (sparing marker).PermitsUploads key :=
  fun _ => nofun

theorem sparing_permitsFiles (suffix : String) (marker : Key) :
    (sparing marker).PermitsFiles suffix where
  reading := sparing_permitsReading marker
  uploads key _ := sparing_permitsUploads marker key
  markers _ _ := nofun

/-- The removal of a directory is permitted, unless the marker is that of the directory or of one
below it. -/
theorem sparing_permitsRemoval (hsuffix : Key.separator ∉ suffix.toList)
    (hother : Key.IsPlain suffix other) (hne : other ≠ key)
    (habove : Key.isAncestor other key = false) :
    (sparing (key ++ suffix)).PermitsRemoval suffix other where
  file := by
    rintro ⟨⟩
    exact Key.not_isPlain_append_suffix key hsuffix hother
  below child hshows := by
    rintro ⟨⟩
    obtain ⟨request, page, keys, hunder, hpage, hkeys, hshown⟩ := hshows
    obtain ⟨rest, hrest⟩ := hpage page keys rfl hkeys hshown
    rw [hunder, Key.directoryPrefix_eq hother.ne_root] at hrest
    -- the marker of a key below starts with the directory, so the key is below it as well
    obtain ⟨tail, rfl, -⟩ := Key.below_eq_marker hsuffix hrest.symm
    rw [Key.isAncestor_below hother.ne_root] at habove
    cases habove
  marker := by
    intro heq
    injection heq with heq
    exact hne ((String.append_left_inj suffix).1 heq)

theorem sparing_permitsMove (hdelete : (sparing marker).permits (.delete source)) :
    (sparing marker).PermitsMove source destination where
  copy := nofun
  put _ _ := nofun
  delete := hdelete

/-- A rename is permitted when the removal of its source is. -/
theorem sparing_permitsRename (h : (sparing marker).PermitsRemoval suffix source) :
    (sparing marker).PermitsRename suffix source destination where
  file := sparing_permitsMove h.file
  below child hshows := sparing_permitsMove (h.below child hshows)
  marker := sparing_permitsMove h.marker

end Contract

namespace Rule

/-- The rule does not remove the marker, and its pages do not show it. -/
def spares (marker : Key) (r : Rule) : Bool :=
  !r.vanish.contains marker &&
    match r.answer with
    | some (.page (some page)) => !(page.keys.getD []).contains marker
    | _ => true

theorem respects_of_spares {marker : Key} {r : Rule} (h : r.spares marker = true) :
    r.Respects (.sparing marker) (Contents.Holds marker) := by
  unfold spares at h
  rw [Bool.and_eq_true] at h
  obtain ⟨hvanish, hanswer⟩ := h
  refine ⟨fun key hkey contents hcontents => hcontents.erase ?_, fun request answer hscripted => ?_⟩
  · rintro rfl
    simp [hkey] at hvanish
  · cases request with
    | list request =>
        obtain ⟨scripted, hsome, hto⟩ := Option.bind_eq_some_iff.1 hscripted
        rw [hsome] at hanswer
        rintro p keys rfl hkeys hshown
        cases scripted with
        | page page =>
            cases hto
            simp [hkeys, hshown] at hanswer
        | _ => cases hto
    | _ => trivial

end Rule

end BucketTree
