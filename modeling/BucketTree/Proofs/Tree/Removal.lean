import BucketTree.Proofs.Store.Schedule
import BucketTree.Proofs.Tree.Queries
import BucketTree.Tree.Removal

/-!
# Deletions

While a directory is being deleted, the recorded objects are gone and all others are as before
(`Erasing`), so the pages to come list exactly the keys left. `ensures_delete` states how a deletion
may end on any store that answers by its contents or fails loudly. On a store in memory it returns,
and does what `Deletes` says (`delete_settled`). With faults, a deletion that stops has changed
nothing, or it reports exactly what it has removed (`delete_accounted`).
-/

set_option autoImplicit false

namespace BucketTree

namespace Contents

/-- The contents without the objects at the given keys. -/
def without (contents : Contents) (keys : List Key) : Contents :=
  fun key => if key ∈ keys then none else contents key

variable {contents : Contents} {keys : List Key} {key : Key}

theorem without_nil : contents.without [] = contents := by
  funext key
  exact if_neg List.not_mem_nil

theorem without_of_mem (h : key ∈ keys) : contents.without keys key = none := if_pos h

theorem without_of_not_mem (h : key ∉ keys) : contents.without keys key = contents key := if_neg h

/-- Removing one more object. -/
theorem update_without :
    Function.update (contents.without keys) key none = contents.without (keys ++ [key]) := by
  funext other
  rw [Function.update_apply]
  unfold without
  by_cases heq : other = key
  · rw [if_pos heq, if_pos (List.mem_append_right _ (List.mem_singleton.2 heq))]
  · rw [if_neg heq]
    simp [heq]

end Contents

/-- The loop invariant of a deletion: the objects at the keys `deleted` are gone, and those at the
keys `left` are still to be deleted. -/
structure Erasing (under : String) (b₀ : Bucket) (left deleted : List Key) (b : Bucket) : Prop where
  keys_eq : b₀.keysUnder under = deleted ++ left
  contents_eq : b.contents = b₀.contents.without deleted

namespace Erasing

variable {under : String} {b₀ b b' : Bucket} {left deleted : List Key} {key : Key}

theorem start (under : String) (b₀ : Bucket) : Erasing under b₀ (b₀.keysUnder under) [] b₀ :=
  ⟨rfl, Contents.without_nil.symm⟩

/-- Every deleted key had an object before. -/
theorem was_present (h : Erasing under b₀ left deleted b) :
    ∀ key ∈ deleted, b₀.contents key ≠ none := by
  intro key hkey
  have hmem : key ∈ b₀.keysUnder under := by
    rw [h.keys_eq]
    exact List.mem_append_left _ hkey
  exact (Bucket.mem_keysUnder.1 hmem).1

/-- The keys left are those that the bucket still has with the prefix. -/
theorem keysUnder_eq (h : Erasing under b₀ left deleted b) : b.keysUnder under = left := by
  have hsorted := b₀.keysUnder_increasing under
  rw [h.keys_eq] at hsorted
  obtain ⟨-, hleft, hcross⟩ := List.pairwise_append.1 hsorted
  apply Bucket.keysUnder_eq_of_mem hleft
  intro key
  have hmem : key ∈ deleted ++ left ↔ _ := h.keys_eq ▸ Bucket.mem_keysUnder
  rw [h.contents_eq]
  constructor
  · -- no key is both deleted and left
    intro hkey
    obtain ⟨hpresent, hunder⟩ := hmem.1 (List.mem_append_right _ hkey)
    have hnot : key ∉ deleted := fun hdeleted =>
      String.lt_irrefl key (hcross key hdeleted key hkey)
    rw [Contents.without_of_not_mem hnot]
    exact ⟨hpresent, hunder⟩
  · rintro ⟨hpresent, hunder⟩
    have hnot : key ∉ deleted := fun hdeleted =>
      hpresent (Contents.without_of_mem hdeleted)
    rw [Contents.without_of_not_mem hnot] at hpresent
    exact (List.mem_append.1 (hmem.2 ⟨hpresent, hunder⟩)).resolve_left hnot

theorem present (h : Erasing under b₀ (key :: left) deleted b) : b.contents key ≠ none := by
  have hmem : key ∈ b.keysUnder under := by
    rw [h.keysUnder_eq]
    exact List.mem_cons_self
  exact (Bucket.mem_keysUnder.1 hmem).1

/-- Deleting the object at the first key left preserves the invariant. -/
theorem erase (h : Erasing under b₀ (key :: left) deleted b)
    (herased : b'.contents = Function.update b.contents key none) :
    Erasing under b₀ left (deleted ++ [key]) b' := by
  constructor
  · rw [h.keys_eq, List.append_assoc]
    rfl
  · rw [herased, h.contents_eq, Contents.update_without]

end Erasing

/-! ## Reports -/

/-- The progress of a deletion that stopped. -/
structure RemovalReport where
  /-- The keys of the deleted objects. -/
  deleted : List Key
  /-- The key of the object whose deletion failed, if that is why the deletion stopped. -/
  failedKey : Option Key
deriving DecidableEq, Repr

/-- The report is exact: some objects were deleted, all of its keys had objects, these and no others
are gone, and the object of the failed key is still there. -/
structure RemovalReport.Accounts (report : RemovalReport) (before after : Contents) : Prop where
  deleted_ne_nil : report.deleted ≠ []
  was_present : ∀ key ∈ report.deleted, before key ≠ none
  /-- The contents have changed at the deleted keys only. -/
  removed : after = before.without report.deleted
  failed_present : ∀ key, report.failedKey = some key → after key ≠ none

namespace Fault

/-- The removal report in a `partialDelete` failure. -/
def removalReport? : Fault → Option RemovalReport
  | .known ⟨.partialDelete deleted failedKey, _, _⟩ => some ⟨deleted, failedKey⟩
  | _ => none

/-- A fault accounts for a removal: its report is exact, or it has none and nothing has changed. -/
def AccountsForRemoval (fault : Fault) (before after : Contents) : Prop :=
  match fault.removalReport? with
  | none => after = before
  | some report => report.Accounts before after

theorem accountsForRemoval_of_none {fault : Fault} (h : fault.removalReport? = none)
    (contents : Contents) : fault.AccountsForRemoval contents contents := by
  unfold AccountsForRemoval
  rw [h]

end Fault

/-- The state of a recursive deletion that `failure` interrupts after the keys `deleted`. -/
structure Interrupted (before : Contents) (failure : Failure) (deleted : List Key)
    (after : Contents) : Prop where
  /-- The failure itself carries no report. -/
  unreported : (Fault.known failure).removalReport? = none
  /-- The failure is no absence. -/
  found : failure.isNotFound = false
  was_present : ∀ key ∈ deleted, before key ≠ none
  removed : after = before.without deleted
  /-- An object whose deletion failed is still there. -/
  failed_present : failure.isDelete = true → ∀ key, failure.key = some key → after key ≠ none

namespace Interrupted

variable {before after : Contents} {failure : Failure} {deleted : List Key}

/-- Before any deletion, the failure is raised as it is, and nothing has changed. -/
theorem accounts_unchanged (h : Interrupted before failure deleted after)
    (hnone : deleted.isEmpty = true) : (Fault.known failure).AccountsForRemoval before after := by
  obtain rfl := List.isEmpty_iff.1 hnone
  have hsame := h.removed
  rw [Contents.without_nil] at hsame
  rw [hsame]
  exact Fault.accountsForRemoval_of_none h.unreported before

/-- After some deletions, the failure is wrapped into an exact report. -/
theorem accounts_partial (h : Interrupted before failure deleted after)
    (hsome : ¬ deleted.isEmpty = true) {key : Key} {failedKey : Option Key} {cause : Cause}
    (hfailed : ∀ k, failedKey = some k → after k ≠ none) :
    (Fault.known (.partialDelete key deleted failedKey cause)).AccountsForRemoval before after :=
  ⟨fun hnil => hsome (List.isEmpty_iff.2 hnil), h.was_present, h.removed, hfailed⟩

end Interrupted

/-! ## The steps of a deletion -/

namespace Tree

/-- A deletion may fail: some `head`, some `delete` or some page may fail, or it has a token. -/
def DeleteMayFail (fails : Request → Fault → Prop) (t : Tree) (cancel : Option Token) : Prop :=
  (∃ key fault, fails (.head key) fault ∨ fails (.delete key) fault) ∨
    Listing.MayBreak fails (.int 1) cancel ∨ Listing.MayBreak fails t.settings.chunkLength cancel

/-- The deletion stopped by a failure that is not wrapped into a report yet. -/
def StopsAt (mayFail : Prop) (b₀ : Bucket) (fault : Fault) (deleted : List Key) (b : Bucket) :
    Prop :=
  mayFail ∧ ∃ failure, fault = .known failure ∧
    Interrupted b₀.contents failure deleted b.contents

section Steps

variable {t : Tree} {fails : Request → Fault → Prop} {b₀ b : Bucket} {key : Key}
  {cancel : Option Token}

/-- The program `deleteKey` deletes an existing object, or it fails and the object stays. -/
theorem ensures_deleteKey (hloud : Loud fails) {post : Option (Except Fault Unit) → Bucket → Prop}
    (hpresent : b.contents key ≠ none)
    (hdone : ∀ b', b'.contents = Function.update b.contents key none → post (some (.ok ())) b')
    (hfail : ∀ failure, failure.kind = .delete → failure.key = some key →
      (∃ fault, fails (.delete key) fault) → post (some (.error (.known failure))) b) :
    (deleteKey key).Ensures (Bucket.environment fails) (fun _ _ => True) post b := by
  refine Action.ensures_bind (Action.ensures_request (q := .delete key) trivial ?_)
  intro outcome b' hanswer
  cases hanswer with
  | failed hfault =>
      show Action.Ensures _ _ _ (if (Fault.toFailure _ _ _).isNotFound then _ else _) b
      rw [Fault.toFailure_isNotFound, hloud _ _ hfault, if_neg Bool.false_ne_true]
      exact hfail _ rfl rfl ⟨_, hfault⟩
  | absent hneeds hkey =>
      cases hneeds
      exact absurd (Bucket.contents_eq_none.2 hkey) hpresent
  | delete hkey herased => exact hdone _ herased

/-- A failed deletion of an object interrupts the recursive deletion. -/
theorem interrupted_of_delete {failure : Failure} {deleted : List Key} {child : Key}
    (hkind : failure.kind = .delete) (hkey : failure.key = some child)
    (hdeleted : ∀ key ∈ deleted, b₀.contents key ≠ none)
    (hremoved : b.contents = b₀.contents.without deleted) (hpresent : b.contents child ≠ none) :
    Interrupted b₀.contents failure deleted b.contents := by
  refine ⟨?_, Failure.isNotFound_eq_false (hkind ▸ nofun), hdeleted, hremoved, ?_⟩
  · obtain ⟨kind, key, cause⟩ := failure
    obtain rfl : kind = .delete := hkind
    rfl
  · intro _ k hk
    rw [hkey] at hk
    cases hk
    exact hpresent

/-- A failure of the listing, or a cancellation, interrupts the recursive deletion. -/
theorem interrupted_of_listing {failure : Failure} {deleted : List Key}
    (hfailure : Listing.IsFailure failure) (hdeleted : ∀ key ∈ deleted, b₀.contents key ≠ none)
    (hremoved : b.contents = b₀.contents.without deleted) :
    Interrupted b₀.contents failure deleted b.contents := by
  obtain ⟨kind, key, cause⟩ := failure
  refine ⟨?_, ?_, hdeleted, hremoved, ?_⟩
  · rcases hfailure with h | h <;> cases h <;> rfl
  · rcases hfailure with h | h <;> cases h <;> rfl
  · -- no object is to blame for these
    rcases hfailure with h | h <;> cases h <;> exact nofun

/-- One round of the loop deletes the first key left, or it stops the deletion. -/
theorem ensures_deleteChild (hloud : Loud fails) {under : String} {child : Key}
    {left deleted : List Key} {endless : Bucket → Prop}
    (h : Erasing under b₀ (child :: left) deleted b) :
    (deleteChild key cancel child).Ensures (Bucket.environment fails) (fun _ _ => True)
      (Walk.Ends (fun _ => Erasing under b₀ left) (StopsAt (t.DeleteMayFail fails cancel) b₀)
        endless) deleted b := by
  refine Walk.ensures_bind (Walk.ensures_ofAction (Action.ensures_checkCancelled ?_ ?_))
  · refine Walk.ensures_bind (Walk.ensures_ofAction (Action.ensures_outcome
      (ensures_deleteKey hloud h.present ?_ ?_)))
    · intro b' herased
      exact Walk.ensures_modify (h.erase herased)
    · -- no fault is an absence, so the object is not skipped as one that has vanished
      intro failure hkind hkey ⟨fault, hfault⟩
      have hinterrupted :=
        interrupted_of_delete hkind hkey h.was_present h.contents_eq h.present
      show Walk.Ensures _ _ _ (if failure.isNotFound then _ else _) deleted b
      rw [hinterrupted.found, if_neg Bool.false_ne_true]
      exact Walk.ensures_throw ⟨Or.inl ⟨_, _, Or.inr hfault⟩, failure, rfl, hinterrupted⟩
  · intro hcancel
    exact ⟨Or.inr (Or.inl (Or.inl hcancel)), _, rfl,
      interrupted_of_listing (Or.inr rfl) h.was_present h.contents_eq⟩

/-- The program `deleteContents` deletes every object below the directory and returns their keys, or
it stops and accounts for what it has removed. -/
theorem ensures_deleteContents (hloud : Loud fails) (hroot : key ≠ Key.root)
    {post : Option (Except Fault (List Key)) → Bucket → Prop}
    (hdone : ∀ b, b.contents = b₀.contents.without (b₀.keysUnder (key ++ "/")) →
      post (some (.ok (b₀.keysUnder (key ++ "/")))) b)
    (hstop : ∀ failure b, t.DeleteMayFail fails cancel → failure.isNotFound = false →
      (Fault.known failure).AccountsForRemoval b₀.contents b.contents →
      post (some (.error (.known failure))) b)
    (hendless : ∀ b, t.pageLimit < (b₀.keysUnder (key ++ "/")).length + 2 → post none b) :
    (t.deleteContents key cancel).Ensures (Bucket.environment fails) (fun _ _ => True) post b₀ := by
  unfold deleteContents
  rw [Key.directoryPrefix_eq hroot]
  have hwalk : ((Listing.start (some (key ++ "/")) true t.settings.chunkLength cancel).walk
      (fun chunk => chunk.keys.forM (deleteChild key cancel)) t.pageLimit).Ensures
      (Bucket.environment fails) (fun _ _ => True)
      (Walk.Ends (fun _ => Erasing (key ++ "/") b₀ []) (StopsAt (t.DeleteMayFail fails cancel) b₀)
        (fun _ => t.pageLimit < (b₀.keysUnder (key ++ "/")).length + 2)) [] b₀ := by
    refine Listing.ensures_walk ?_ ?_ ?_ ?_ ?_ (Erasing.start _ _)
    · intro left deleted b h
      exact h.keysUnder_eq
    · intro left deleted b request h
      trivial
    · intro child left deleted b h
      exact ensures_deleteChild hloud h
    · intro left deleted b failure h hfailure hbreak
      exact ⟨Or.inr (Or.inr hbreak), failure, rfl,
        interrupted_of_listing hfailure h.was_present h.contents_eq⟩
    · intro hpages left deleted b h
      exact hpages
  refine Action.ensures_bind (Walk.ensures_collect (hwalk.mono ?_))
  rintro (_ | ⟨fault | _, deleted⟩) b hend
  · exact hendless b hend
  · obtain ⟨hmay, failure, rfl, hinterrupted⟩ := hend
    show Action.Ensures _ _ _ (if deleted.isEmpty then _ else _) b
    split
    next hnone =>
      exact hstop failure b hmay hinterrupted.found (hinterrupted.accounts_unchanged hnone)
    next hsome =>
      refine hstop _ b hmay rfl (hinterrupted.accounts_partial hsome ?_)
      intro k hk
      split at hk
      next hdelete => exact hinterrupted.failed_present hdelete k hk
      next => cases hk
  · obtain ⟨hkeys, hcontents⟩ := hend
    rw [List.append_nil] at hkeys
    rw [← hkeys] at hcontents
    have hlast := hdone b hcontents
    rw [hkeys] at hlast
    exact hlast

/-- The program `deleteMarker` deletes the marker, or it stops and accounts for what was removed. -/
theorem ensures_deleteMarker (hloud : Loud fails) (hroot : key ≠ Key.root) {deleted : List Key}
    {post : Option (Except Fault Unit) → Bucket → Prop}
    (hdeleted : ∀ key ∈ deleted, b₀.contents key ≠ none)
    (hremoved : b.contents = b₀.contents.without deleted)
    (hpresent : b.contents (key ++ t.suffix) ≠ none)
    (hdone : ∀ b, b.contents = b₀.contents.without (deleted ++ [key ++ t.suffix]) →
      post (some (.ok ())) b)
    (hstop : ∀ failure, (∃ fault, fails (.delete (key ++ t.suffix)) fault) →
      failure.isNotFound = false → (Fault.known failure).AccountsForRemoval b₀.contents b.contents →
      post (some (.error (.known failure))) b) :
    (t.deleteMarker key deleted).Ensures (Bucket.environment fails) (fun _ _ => True) post b := by
  unfold deleteMarker
  rw [Key.marker_eq hroot]
  refine Action.ensures_bind (Action.ensures_pure ?_)
  refine Action.ensures_bind (Action.ensures_outcome (ensures_deleteKey hloud hpresent ?_ ?_))
  · intro b' herased
    apply hdone b'
    rw [herased, hremoved, Contents.update_without]
  · intro failure hkind hkey hmay
    have hinterrupted := interrupted_of_delete hkind hkey hdeleted hremoved hpresent
    show Action.Ensures _ _ _
      (if failure.isNotFound then _ else if deleted.isEmpty then _ else _) b
    rw [hinterrupted.found, if_neg Bool.false_ne_true]
    split
    next hnone =>
      exact hstop failure hmay hinterrupted.found (hinterrupted.accounts_unchanged hnone)
    next hsome =>
      refine hstop _ hmay rfl (hinterrupted.accounts_partial hsome ?_)
      intro k hk
      rw [hkey] at hk
      cases hk
      exact hpresent

end Steps

end Tree

/-! ## Whole deletions -/

/-- The marker of the directory and all keys below it are gone. -/
structure DirectoryGone (suffix : String) (key : Key) (before after : Contents) : Prop where
  marker_gone : after (key ++ suffix) = none
  below_gone : ∀ rest, after (key ++ "/" ++ rest) = none
  /-- Every other key is unchanged. -/
  others_kept : ∀ other, other ≠ key ++ suffix → (∀ rest, other ≠ key ++ "/" ++ rest) →
    after other = before other

/-- The effect of a deletion without faults. -/
inductive Deletes (suffix : String) (key : Key) (isRecursive : Bool) (before : Contents) :
    Except Fault Unit → Contents → Prop
  /-- The object of a file is deleted. -/
  | file (hfile : before key ≠ none) :
      Deletes suffix key isRecursive before (.ok ()) (Function.update before key none)
  /-- The path does not exist. -/
  | absent (hfile : before key = none) (hmarker : before (key ++ suffix) = none)
      (hbelow : ∀ rest, before (key ++ "/" ++ rest) = none) :
      Deletes suffix key isRecursive before (.error (.known (.notFound key (.noSuchEntry key))))
        before
  /-- The directory has keys below it, and the deletion is not recursive. -/
  | notEmpty {rest : String} (hfile : before key = none)
      (hbelow : before (key ++ "/" ++ rest) ≠ none) (hrecursive : isRecursive = false) :
      Deletes suffix key isRecursive before (.error (.known ⟨.notEmpty, some key, .notEmpty key⟩))
        before
  /-- The directory is deleted. -/
  | directory {after : Contents} (hfile : before key = none)
      (hdirectory : before (key ++ suffix) ≠ none ∨ ∃ rest, before (key ++ "/" ++ rest) ≠ none)
      (hallowed : isRecursive = true ∨ ∀ rest, before (key ++ "/" ++ rest) = none)
      (hgone : DirectoryGone suffix key before after) :
      Deletes suffix key isRecursive before (.ok ()) after

namespace DirectoryGone

variable {suffix : String} {key : Key} {before after : Contents}

/-- A directory that is gone does not exist. -/
theorem not_isAt (h : DirectoryGone suffix key before after) (hroot : key ≠ Key.root) :
    ¬ Directory.IsAt suffix key after := by
  rintro (hkey | hmarker | ⟨rest, hrest⟩)
  · exact hroot hkey
  · exact hmarker h.marker_gone
  · rw [Key.directoryPrefix_eq hroot] at hrest
    exact hrest (h.below_gone rest)

/-- A directory is gone when the removed keys are those below it, and its marker if it had one. -/
theorem of_without {b₀ : Bucket} {keys : List Key}
    (hkeys : ∀ other, other ∈ keys → other = key ++ suffix ∨ other ∈ b₀.keysUnder (key ++ "/"))
    (hmarker : b₀.contents (key ++ suffix) ≠ none → key ++ suffix ∈ keys)
    (hbelow : ∀ other ∈ b₀.keysUnder (key ++ "/"), other ∈ keys) :
    DirectoryGone suffix key b₀.contents (b₀.contents.without keys) := by
  have hgone : ∀ other, (b₀.contents other ≠ none → other ∈ keys) →
      b₀.contents.without keys other = none := by
    intro other hmem
    by_cases hkey : other ∈ keys
    · exact Contents.without_of_mem hkey
    · rw [Contents.without_of_not_mem hkey]
      by_contra hpresent
      exact hkey (hmem hpresent)
  refine ⟨hgone _ hmarker, ?_, ?_⟩
  · intro rest
    apply hgone
    intro hpresent
    exact hbelow _ (Bucket.mem_keysUnder.2 ⟨hpresent, rest, rfl⟩)
  · intro other hnotMarker hnotBelow
    apply Contents.without_of_not_mem
    intro hmem
    rcases hkeys other hmem with hother | hother
    · exact hnotMarker hother
    · obtain ⟨-, rest, hrest⟩ := Bucket.mem_keysUnder.1 hother
      exact hnotBelow rest hrest

variable {b₀ : Bucket}

/-- Removing the keys below a directory and its marker. -/
theorem of_marker : DirectoryGone suffix key b₀.contents
    (b₀.contents.without (b₀.keysUnder (key ++ "/") ++ [key ++ suffix])) := by
  refine .of_without ?_ ?_ ?_
  · intro other hother
    rcases List.mem_append.1 hother with hbelow | hlast
    · exact Or.inr hbelow
    · exact Or.inl (List.mem_singleton.1 hlast)
  · intro _
    exact List.mem_append_right _ (List.mem_singleton.2 rfl)
  · intro other hother
    exact List.mem_append_left _ hother

/-- Removing the keys below a directory without a marker. -/
theorem of_below (hmarker : b₀.contents (key ++ suffix) = none) :
    DirectoryGone suffix key b₀.contents (b₀.contents.without (b₀.keysUnder (key ++ "/"))) :=
  .of_without (fun _ hother => Or.inr hother) (fun hthere => absurd hmarker hthere)
    fun _ hother => hother

end DirectoryGone

namespace Tree

/-- The ends of a deletion. -/
inductive DeleteEnds (t : Tree) (path : Value) (isRecursive : Bool) (mayFail : Prop) (b₀ : Bucket) :
    Option (Except Fault Unit) → Bucket → Prop
  /-- The path is refused or names the root. -/
  | refused {fault : Fault} (hpath : ∀ key, t.resolve path = .ok key → key = Key.root)
      (hreport : fault.removalReport? = none) :
      DeleteEnds t path isRecursive mayFail b₀ (some (.error fault)) b₀
  | settled {key : Key} {outcome : Except Fault Unit} {b : Bucket}
      (hresolve : t.resolve path = .ok key)
      (hdeletes : Deletes t.suffix key isRecursive b₀.contents outcome b.contents)
      (hkept : outcome ≠ .ok () → b = b₀) :
      DeleteEnds t path isRecursive mayFail b₀ (some outcome) b
  /-- A failure other than an absence stopped the deletion, and it accounts for what was removed. -/
  | stopped {failure : Failure} {b : Bucket} (hmay : mayFail)
      (hfound : failure.isNotFound = false)
      (haccounts : (Fault.known failure).AccountsForRemoval b₀.contents b.contents) :
      DeleteEnds t path isRecursive mayFail b₀ (some (.error (.known failure))) b
  /-- The walk over the directory was given up, since its page limit was too small. -/
  | givenUp {b : Bucket} (hrecursive : isRecursive = true)
      (hfew : t.pageLimit < b₀.keys.length + 2) :
      DeleteEnds t path isRecursive mayFail b₀ none b

variable {t : Tree} {path : Value} {fails : Request → Fault → Prop} {b₀ : Bucket} {key : Key}
  {isRecursive : Bool} {cancel : Option Token}

theorem removalReport?_of_resolve {fault : Fault} (h : t.resolve path = .error fault) :
    fault.removalReport? = none := by
  rcases refusal_of_resolve h with ⟨misuse, rfl⟩ | ⟨⟨kind, key, cause⟩, rfl, hkind⟩
  · rfl
  · rcases hkind with ⟨code, rfl⟩ | ⟨refused, rfl⟩ <;> rfl

theorem removalReport?_of_query {failure : Failure} (h : IsQueryFailure failure) :
    (Fault.known failure).removalReport? = none := by
  obtain ⟨kind, key, cause⟩ := failure
  rcases h with h | h | h <;> cases h <;> rfl

/-- The last step of a deletion deletes the marker, if there is one. -/
theorem ensures_deleteLast (isRecursive : Bool) (cancel : Option Token) (hloud : Loud fails)
    (hresolve : t.resolve path = .ok key) (hroot : key ≠ Key.root) {b : Bucket}
    {marker : Option ObjectStatus}
    (hmarker : marker.isSome = true ↔ b₀.contents (key ++ t.suffix) ≠ none)
    (hfile : b₀.contents key = none)
    (hdirectory : b₀.contents (key ++ t.suffix) ≠ none ∨
      ∃ rest, b₀.contents (key ++ "/" ++ rest) ≠ none)
    (hallowed : isRecursive = true ∨ ∀ rest, b₀.contents (key ++ "/" ++ rest) = none)
    (hremoved : b.contents = b₀.contents.without (b₀.keysUnder (key ++ "/"))) :
    (if marker.isSome then t.deleteMarker key (b₀.keysUnder (key ++ "/")) else pure ()).Ensures
      (Bucket.environment fails) (fun _ _ => True)
      (DeleteEnds t path isRecursive (t.DeleteMayFail fails cancel) b₀) b := by
  have hpresent : ∀ k ∈ b₀.keysUnder (key ++ "/"), b₀.contents k ≠ none := fun k hk =>
    (Bucket.mem_keysUnder.1 hk).1
  have hnot : key ++ t.suffix ∉ b₀.keysUnder (key ++ "/") := by
    intro hmem
    obtain ⟨-, rest, hrest⟩ := Bucket.mem_keysUnder.1 hmem
    exact Key.below_ne_marker t.settings.separator_not_mem key rest hrest.symm
  split
  next hsome =>
    have hthere : b.contents (key ++ t.suffix) ≠ none := by
      rw [hremoved, Contents.without_of_not_mem hnot]
      exact hmarker.1 hsome
    refine ensures_deleteMarker hloud hroot hpresent hremoved hthere ?_ ?_
    · intro b' hb'
      refine .settled hresolve (.directory hfile hdirectory hallowed ?_) fun h => absurd rfl h
      rw [hb']
      exact .of_marker
    · intro failure ⟨fault, hfault⟩ hfound haccounts
      exact .stopped (Or.inl ⟨_, _, Or.inr hfault⟩) hfound haccounts
  next hnone =>
    refine .settled hresolve (.directory hfile hdirectory hallowed ?_) fun h => absurd rfl h
    rw [hremoved]
    refine .of_below ?_
    by_contra hthere
    exact hnone (hmarker.2 hthere)

/-- The program `markerStatus` tells whether the marker exists, or it fails. -/
theorem ensures_marker (hloud : Loud fails) {suffix : String} (hroot : key ≠ Key.root) :
    (Directory.markerStatus suffix key).Ensures (Bucket.environment fails) (fun _ _ => True)
      (fun r b => b = b₀ ∧
        ((∃ marker : Option ObjectStatus, r = some (.ok marker) ∧
            (marker.isSome = true ↔ b₀.contents (key ++ suffix) ≠ none)) ∨
          ∃ failure, r = some (.error (.known failure)) ∧ failure.kind = .statusQuery ∧
            ∃ fault, fails (.head (key ++ suffix)) fault)) b₀ := by
  refine Directory.ensures_markerStatus hloud hroot (fun _ _ => trivial) ?_ ?_ ?_
  · intro object hobject
    refine ⟨rfl, Or.inl ⟨_, rfl, fun _ => ?_, fun _ => rfl⟩⟩
    rw [Bucket.contents_of_find? hobject]
    exact Option.some_ne_none _
  · intro hobject
    refine ⟨rfl, Or.inl ⟨_, rfl, fun hsome => absurd hsome Bool.false_ne_true, fun hthere => ?_⟩⟩
    exact absurd (Bucket.contents_eq_none.2 hobject) hthere
  · intro failure hkind hfault
    exact ⟨rfl, Or.inr ⟨failure, rfl, hkind, hfault⟩⟩

/-- Every deletion ends as `DeleteEnds` says. -/
theorem ensures_delete (hloud : Loud fails) (t : Tree) (path : Value) (isRecursive : Bool)
    (cancel : Option Token) (b₀ : Bucket) :
    (t.delete path isRecursive cancel).Ensures (Bucket.environment fails) (fun _ _ => True)
      (DeleteEnds t path isRecursive (t.DeleteMayFail fails cancel) b₀) b₀ := by
  have hquery : ∀ failure, IsQueryFailure failure → t.DeleteMayFail fails cancel →
      DeleteEnds t path isRecursive (t.DeleteMayFail fails cancel) b₀
        (some (.error (.known failure))) b₀ := fun failure hfailure hmay =>
    .stopped hmay hfailure.isNotFound_eq_false
      (Fault.accountsForRemoval_of_none (removalReport?_of_query hfailure) _)
  refine Action.ensures_bind (ensures_key ?_)
  cases hresolve : t.resolve path with
  | error fault =>
      refine .refused ?_ (removalReport?_of_resolve hresolve)
      intro key hkey
      rw [hresolve] at hkey
      cases hkey
  | ok key =>
  show Action.Ensures _ _ _ (refuseRoot key .rootDelete path >>= fun _ => _) b₀
  unfold refuseRoot
  by_cases hroot : key = Key.root
  · rw [if_pos (beq_iff_eq.2 hroot)]
    refine Action.ensures_bind (Action.ensures_fail (.refused ?_ rfl))
    intro key' hkey'
    rw [hresolve] at hkey'
    cases hkey'
    exact hroot
  rw [if_neg fun h => hroot (eq_of_beq h)]
  refine Action.ensures_bind (Action.ensures_pure ?_)
  refine Action.ensures_bind (ensures_statusOf hloud trivial ?_ ?_ ?_)
  · -- an object is deleted by one request
    intro object hobject
    have hfile : b₀.contents key ≠ none := by
      rw [Bucket.contents_of_find? hobject]
      exact Option.some_ne_none _
    refine ensures_deleteKey hloud hfile ?_ ?_
    · intro b hb
      have hdeletes : Deletes t.suffix key isRecursive b₀.contents (.ok ()) _ := .file hfile
      rw [← hb] at hdeletes
      exact .settled hresolve hdeletes fun h => absurd rfl h
    · intro failure hkind hkey ⟨fault, hfault⟩
      have hinterrupted := interrupted_of_delete hkind hkey
        (fun k hk => absurd hk List.not_mem_nil) Contents.without_nil.symm hfile
      exact .stopped (Or.inl ⟨_, _, Or.inr hfault⟩) hinterrupted.found
        (hinterrupted.accounts_unchanged rfl)
  · intro hobject
    have hfile := Bucket.contents_eq_none.2 hobject
    refine Action.ensures_bind (Program.Ensures.mono (ensures_marker hloud hroot) ?_)
    rintro _ b ⟨rfl, ⟨marker, rfl, hmarker⟩ | ⟨failure, rfl, hkind, fault, hfault⟩⟩
    · refine Action.ensures_bind (Directory.ensures_hasChildren (fun _ _ => trivial) ?_ ?_ ?_)
      · rintro ⟨rest, hrest⟩
        rw [Key.directoryPrefix_eq hroot] at hrest
        show Action.Ensures _ _ _ (if _ then _ else if _ then _ else _) b
        rw [Bool.not_true, Bool.and_false, if_neg Bool.false_ne_true, Bool.true_and]
        cases isRecursive with
        | false =>
            exact Action.ensures_fail
              (.settled hresolve (.notEmpty hfile hrest rfl) fun _ => rfl)
        | true =>
            rw [Bool.not_true, if_neg Bool.false_ne_true]
            refine Action.ensures_bind (ensures_deleteContents hloud hroot ?_ ?_ ?_)
            · intro b' hb'
              exact ensures_deleteLast true cancel hloud hresolve hroot hmarker hfile
                (Or.inr ⟨rest, hrest⟩) (Or.inl rfl) hb'
            · intro failure b' hmay hfound haccounts
              exact .stopped hmay hfound haccounts
            · intro b' hpages
              have hlength := b.length_keysUnder_le (key ++ "/")
              exact .givenUp rfl (by omega)
      · intro hbelow
        rw [Key.directoryPrefix_eq hroot] at hbelow
        show Action.Ensures _ _ _ (if _ then _ else if _ then _ else _) b
        rw [Bool.not_false, Bool.and_true, Bool.false_and]
        cases marker with
        | none =>
            refine Action.ensures_fail
              (.settled hresolve (.absent hfile ?_ hbelow) fun _ => rfl)
            by_contra hthere
            cases hmarker.2 hthere
        | some marker =>
            -- the marker is all that there is of the directory
            have hnil := Bucket.keysUnder_eq_nil hbelow
            have hunchanged : b.contents = b.contents.without (b.keysUnder (key ++ "/")) := by
              rw [hnil, Contents.without_nil]
            have hlast := ensures_deleteLast isRecursive cancel hloud hresolve hroot hmarker hfile
              (Or.inl (hmarker.1 rfl)) (Or.inr hbelow) hunchanged
            rw [hnil] at hlast
            exact Action.ensures_bind (Action.ensures_pure hlast)
      · intro failure hfailure hbreak
        exact hquery failure (Or.inr hfailure) (Or.inr (Or.inl hbreak))
    · exact hquery failure (Or.inl hkind) (Or.inl ⟨_, _, Or.inl hfault⟩)
  · intro failure hkind ⟨fault, hfault⟩
    exact hquery failure (Or.inl hkind) (Or.inl ⟨_, _, Or.inl hfault⟩)

/-- In memory, a deletion without a token meets no fault. -/
theorem not_deleteMayFail {n : Int} (hchunk : t.settings.chunkLength = .int n) :
    ¬ t.DeleteMayFail Memory.refuses none := by
  have hpages : ∀ size : Int, 1 ≤ size → ¬ Listing.MayBreak Memory.refuses (.int size) none := by
    rintro size hsize (hcancel | ⟨request, fault, hmax, -, hrefused⟩)
    · exact hcancel rfl
    · exact absurd (hrefused size hmax) (Int.not_lt.2 hsize)
  rintro (⟨key, fault, hhead | hdelete⟩ | hbreak | hbreak)
  · exact hhead
  · exact hdelete
  · exact hpages 1 (Int.le_refl 1) hbreak
  · rw [hchunk] at hbreak
    exact hpages n (t.settings.one_le_of_chunkLength_eq hchunk) hbreak

/-- In memory, a deletion has an outcome if the page limit exceeds the number of keys by at least
two, and `Deletes` relates it to the contents before and after. A directory that was deleted does
not exist afterwards. -/
theorem delete_settled (t : Tree) (path : Value) (isRecursive : Bool) (m : Memory) {key : Key}
    {n : Int} (hresolve : t.resolve path = .ok key) (hroot : key ≠ Key.root)
    (hchunk : t.settings.chunkLength = .int n)
    (hpages : (m.bucket t.bucket).keys.length + 2 ≤ t.pageLimit) :
    ∃ outcome,
      ((t.delete path isRecursive none).perform (Memory.backend t.bucket) m).1 = some outcome ∧
      Deletes t.suffix key isRecursive (m.bucket t.bucket).contents outcome
        (((t.delete path isRecursive none).perform (Memory.backend t.bucket) m).2.bucket
          t.bucket).contents ∧
      ((m.bucket t.bucket).contents key = none → outcome = .ok () →
        ¬ Directory.IsAt t.suffix key
          (((t.delete path isRecursive none).perform (Memory.backend t.bucket) m).2.bucket
            t.bucket).contents) := by
  obtain ⟨-, hend⟩ := (ensures_delete Memory.loud_refuses t path isRecursive none
    (m.bucket t.bucket)).run (Memory.backend_follows t.bucket)
  generalize ((t.delete path isRecursive none).perform (Memory.backend t.bucket) m).1 = r at hend ⊢
  generalize ((t.delete path isRecursive none).perform (Memory.backend t.bucket) m).2.bucket
    t.bucket = after at hend ⊢
  cases hend with
  | refused hpath hreport => exact absurd (hpath key hresolve) hroot
  | stopped hmay => exact absurd hmay (not_deleteMayFail hchunk)
  | givenUp _ hfew => exact absurd hpages (Nat.not_le.2 hfew)
  | @settled key' outcome _ hresolve' hdeletes _ =>
      rw [hresolve] at hresolve'
      cases hresolve'
      refine ⟨outcome, rfl, hdeletes, ?_⟩
      intro hfile hdone
      generalize after.contents = contents at hdeletes ⊢
      cases hdeletes with
      | file hobject => exact absurd hfile hobject
      | absent => cases hdone
      | notEmpty => cases hdone
      | directory _ _ _ hgone => exact hgone.not_isAt hroot

/-- The directory `s` of `shelf` is deleted with its marker, one key on each page, and `st` is
kept. -/
theorem delete_settled_shelf :
    (∃ outcome, Deletes "_$folder$" "s" true (shelf.bucket "b").contents outcome
      (((keyByKey.delete "/s" true none).perform (Memory.backend "b") shelf).2.bucket
        "b").contents) ∧
    Action.returned? ((keyByKey.delete "/s" true none).perform (Memory.backend "b") shelf).1 =
      some () ∧
    (((keyByKey.delete "/s" true none).perform (Memory.backend "b") shelf).2.bucket "b").keys =
      ["st"] := by
  have hresolve : keyByKey.resolve "/s" = .ok "s" := rfl
  obtain ⟨outcome, -, hdeletes, -⟩ :=
    delete_settled keyByKey "/s" true shelf hresolve (by decide) rfl (by decide +kernel)
  exact ⟨⟨outcome, hdeletes⟩, by decide +kernel, by decide +kernel⟩

/-- Under any loud schedule, a fault of a deletion accounts for what was removed: either nothing has
changed, or its report names exactly the deleted keys. -/
theorem delete_accounted (t : Tree) (path : Value) (isRecursive : Bool) (cancel : Option Token)
    (schedule : Schedule) (hloud : schedule.IsLoud) (s : Schedule.State) (fault : Fault)
    (hraised : Action.raised?
      ((t.delete path isRecursive cancel).perform (schedule.backend t.bucket) s).1 = some fault) :
    fault.AccountsForRemoval (s.memory.bucket t.bucket).contents
      (((t.delete path isRecursive cancel).perform (schedule.backend t.bucket) s).2.memory.bucket
        t.bucket).contents := by
  obtain ⟨-, hend⟩ := (ensures_delete Schedule.loud_failsLoudly t path isRecursive cancel
    (s.memory.bucket t.bucket)).run (Schedule.backend_follows hloud t.bucket)
  rw [Action.raised?_eq_some hraised] at hend
  generalize ((t.delete path isRecursive cancel).perform (schedule.backend t.bucket)
    s).2.memory.bucket t.bucket = after at hend ⊢
  cases hend with
  | refused hpath hreport => exact Fault.accountsForRemoval_of_none hreport _
  | stopped _ _ haccounts => exact haccounts
  | settled hresolve hdeletes =>
      generalize after.contents = contents at hdeletes ⊢
      cases hdeletes with
      | absent => exact Fault.accountsForRemoval_of_none rfl _
      | notEmpty => exact Fault.accountsForRemoval_of_none rfl _

/-- The second deletion is refused: the report names the first key as deleted and the second as
failed. -/
theorem delete_accounted_protected :
    ∃ fault, Action.raised? ((keyByKey.delete "/s" true none).perform
        ((Schedule.protecting "s//b").backend "b") ⟨shelf, []⟩).1 = some fault ∧
      fault.removalReport? = some ⟨["s/"], some "s//b"⟩ ∧
      RemovalReport.Accounts ⟨["s/"], some "s//b"⟩ (shelf.bucket "b").contents
        (((keyByKey.delete "/s" true none).perform
          ((Schedule.protecting "s//b").backend "b") ⟨shelf, []⟩).2.memory.bucket
            "b").contents := by
  have hreported : (Action.raised? ((keyByKey.delete "/s" true none).perform
      ((Schedule.protecting "s//b").backend "b") ⟨shelf, []⟩).1).bind Fault.removalReport? =
        some ⟨["s/"], some "s//b"⟩ := by decide +kernel
  obtain ⟨fault, hraised, hreport⟩ := Option.bind_eq_some_iff.1 hreported
  have haccounts := delete_accounted keyByKey "/s" true none (Schedule.protecting "s//b")
    (Schedule.isLoud_protecting "s//b") ⟨shelf, []⟩ fault hraised
  unfold Fault.AccountsForRemoval at haccounts
  rw [hreport] at haccounts
  exact ⟨fault, hraised, hreport, haccounts⟩

end Tree

end BucketTree
