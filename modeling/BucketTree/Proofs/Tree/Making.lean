import BucketTree.Proofs.Key.Ancestors
import BucketTree.Proofs.Store.Undisturbed
import BucketTree.Proofs.Tree.Queries
import BucketTree.Proofs.Tree.Translation

/-!
# Making directories

Above an existing directory every directory exists, so the recursion over the parents stops at the
first one that does. Each missing directory is looked at on the way up, before the first marker is
written, and gets its marker on the way down (`Made`). Each level takes a nested call; when more of
them are missing than the limit allows, the recursion fails on the way up and nothing has been
written. `Makes` lists the ends of `mkdirs` on a store without faults. The parents are named by the
paths of their keys, which takes a root address that does not start with a separator
(`Tree.resolve_toPath`).
-/

set_option autoImplicit false

namespace BucketTree

namespace Directory

variable {suffix : String} {dir key parent : Key} {before mid after : Contents}

/-- A directory continues to exist when no object is removed. -/
theorem IsAt.mono (h : IsAt suffix dir before)
    (hkept : ∀ other, before other ≠ none → after other ≠ none) : IsAt suffix dir after := by
  rcases h with hroot | hmarker | ⟨rest, hrest⟩
  · exact Or.inl hroot
  · exact Or.inr (Or.inl (hkept _ hmarker))
  · exact Or.inr (Or.inr ⟨rest, hkept _ hrest⟩)

/-- Every directory on the way to an existing directory exists. -/
theorem IsAt.above (h : IsAt suffix key before) (habove : dir.IsOnWay key) :
    IsAt suffix dir before := by
  rcases habove with rfl | habove
  · exact h
  by_cases hdir : dir = Key.root
  · exact Or.inl hdir
  -- the marker of the key, and what is below it, lie below the directory
  obtain ⟨rest, rfl⟩ := (Key.isAncestor_iff hdir).1 habove
  have hkey : dir ++ "/" ++ rest ≠ Key.root := by
    intro heq
    exact hdir (String.append_eq_empty_iff.1 (String.append_eq_empty_iff.1 heq).1).1
  apply Or.inr ∘ Or.inr
  rw [Key.directoryPrefix_eq hdir]
  rcases h with hroot | hmarker | ⟨tail, htail⟩
  · exact absurd hroot hkey
  · exact ⟨rest ++ suffix, by rwa [← String.append_assoc]⟩
  · rw [Key.directoryPrefix_eq hkey] at htail
    exact ⟨rest ++ "/" ++ tail, by simpa only [String.append_assoc] using htail⟩

/-- The missing directories on the way to `key` were made. -/
structure Made (suffix : String) (key : Key) (before after : Contents) : Prop where
  /-- A missing directory had no marker and has an empty one now. -/
  stored : ∀ dir, Key.IsOnWay dir key → ¬ IsAt suffix dir before →
    before (dir ++ suffix) = none ∧ after (dir ++ suffix) = some []
  /-- Every other key is unchanged. -/
  kept : ∀ other, (∀ dir, Key.IsOnWay dir key → ¬ IsAt suffix dir before → other ≠ dir ++ suffix) →
    after other = before other
  directories : ∀ dir, Key.IsOnWay dir key → IsAt suffix dir after

namespace Made

/-- The predicate `Made` for a directory that exists already. -/
theorem of_isAt (h : IsAt suffix key before) : Made suffix key before before where
  stored _ hdir hmissing := absurd (h.above hdir) hmissing
  kept _ _ := rfl
  directories _ hdir := h.above hdir

/-- With the way to the parent made, the marker of the key completes the way to the key. -/
theorem marker (h : Made suffix parent before mid)
    (hway : ∀ dir, Key.IsOnWay dir key ↔ dir = key ∨ Key.IsOnWay dir parent)
    (hmissing : ¬ IsAt suffix key before) :
    Made suffix key before (Function.update mid (key ++ suffix) (some [])) := by
  have hfree : before (key ++ suffix) = none := by
    by_contra hmarker
    exact hmissing (Or.inr (Or.inl hmarker))
  have hother : ∀ {dir : Key}, dir ≠ key → dir ++ suffix ≠ key ++ suffix := fun hne heq =>
    hne ((String.append_left_inj _).1 heq)
  refine ⟨?_, ?_, ?_⟩
  · intro dir hdir hnot
    by_cases hself : dir = key
    · subst hself
      exact ⟨hfree, Function.update_self ..⟩
    · rw [Function.update_of_ne (hother hself)]
      exact h.stored dir (((hway dir).1 hdir).resolve_left hself) hnot
  · intro other hkept
    rw [Function.update_of_ne (hkept key ((hway key).2 (Or.inl rfl)) hmissing)]
    exact h.kept other fun dir hdir => hkept dir ((hway dir).2 (Or.inr hdir))
  · intro dir hdir
    rcases (hway dir).1 hdir with rfl | hdir
    · refine Or.inr (Or.inl ?_)
      rw [Function.update_self]
      exact Option.some_ne_none _
    · -- writing the marker takes no object away, so what was a directory stays one
      refine (h.directories dir hdir).mono fun other hpresent => ?_
      by_cases heq : other = key ++ suffix
      · rw [heq, Function.update_self]
        exact Option.some_ne_none _
      · rwa [Function.update_of_ne heq]

end Made

/-- The ends of making a directory on a store without faults, where at most `limit` calls may be
nested in the first one. -/
inductive Makes (suffix : String) (limit : Nat) (key : Key) (createParents : Bool) (b : Bucket) :
    Except Fault Bool → Bucket → Prop
  /-- An object is at the key. -/
  | occupied (hfile : b.contents key ≠ none) :
      Makes suffix limit key createParents b
        (.error (.known (.alreadyExists key (.fileExists key)))) b
  /-- The directory exists. -/
  | present (hfile : b.contents key = none) (hdirectory : IsAt suffix key b.contents) :
      Makes suffix limit key createParents b (.ok false) b
  /-- The parent is missing and is not to be made. -/
  | orphan {parent : Key} (hfile : b.contents key = none)
      (hmissing : ¬ IsAt suffix key b.contents) (hparents : createParents = false)
      (hparent : Key.parent? key = some parent) (hnone : ¬ IsAt suffix parent b.contents) :
      Makes suffix limit key createParents b
        (.error (.known (.notFound parent (.noParent parent)))) b
  /-- A directory more than `limit` levels up is missing, and no object up to there is in the way:
  the nested calls exceed the limit, and nothing has changed. -/
  | tooDeep {above : Key} (hfile : b.contents key = none)
      (hmissing : ¬ IsAt suffix key b.contents) (hparents : createParents = true)
      (hfree : ∀ dir, Key.isAncestor dir key = true →
        (Key.parts key).length ≤ (Key.parts dir).length + limit → b.contents dir ≠ none →
          IsAt suffix dir b.contents)
      (habove : Key.isAncestor above key = true) (hnone : ¬ IsAt suffix above b.contents)
      (hdeep : (Key.parts above).length + limit < (Key.parts key).length) :
      Makes suffix limit key createParents b (.error (.misuse .tooDeep)) b
  /-- At most `limit` levels up there is an object that is no directory. -/
  | blocked {above : Key} (hfile : b.contents key = none)
      (hmissing : ¬ IsAt suffix key b.contents) (hparents : createParents = true)
      (habove : Key.isAncestor above key = true) (hobject : b.contents above ≠ none)
      (hnone : ¬ IsAt suffix above b.contents)
      (hroom : (Key.parts key).length ≤ (Key.parts above).length + limit) :
      Makes suffix limit key createParents b
        (.error (.known (.alreadyExists above (.fileExists above)))) b
  /-- The missing directories, all of them at most `limit` levels up, and the directory itself are
  made. -/
  | made {b' : Bucket} (hfile : b.contents key = none) (hmissing : ¬ IsAt suffix key b.contents)
      (hparents : createParents = true ∨
        ∀ parent, Key.parent? key = some parent → IsAt suffix parent b.contents)
      (hfree : ∀ above, Key.isAncestor above key = true → b.contents above ≠ none →
        IsAt suffix above b.contents)
      (hroom : ∀ above, Key.isAncestor above key = true → ¬ IsAt suffix above b.contents →
        (Key.parts key).length ≤ (Key.parts above).length + limit)
      (hmade : Made suffix key b.contents b'.contents) :
      Makes suffix limit key createParents b (.ok true) b'

/-- The action has an outcome, and `Makes` relates it to the two buckets. -/
def MakeEnds (suffix : String) (limit : Nat) (key : Key) (createParents : Bool) (b : Bucket)
    (r : Option (Except Fault Bool)) (b' : Bucket) : Prop :=
  ∃ outcome, r = some outcome ∧ Makes suffix limit key createParents b outcome b'

section Rules

variable {b b' : Bucket} {limit : Nat} {createParents : Bool}

/-- The program `createMarker` stores an empty object at the key of the marker. -/
theorem ensures_createMarker (hkey : key ≠ Key.root)
    {post : Option (Except Fault Unit) → Bucket → Prop}
    (hdone : ∀ b', b'.contents = Function.update b.contents (key ++ suffix) (some []) →
      post (some (.ok ())) b') :
    (createMarker suffix key).Ensures (Bucket.environment noFaults) (fun _ _ => True) post b := by
  unfold createMarker
  rw [Key.marker_eq hkey]
  refine Action.ensures_bind (Action.ensures_pure ?_)
  refine Action.ensures_bind (Action.ensures_request (q := .put _ _) trivial ?_)
  intro outcome b' hanswer
  cases outcome with
  | ok block => exact hdone b' (hanswer.put_ok rfl)
  | error fault =>
      cases hanswer with
      | failed hfault => exact hfault.elim
      | absent hneeds hkey => cases hneeds

/-- When the way to the parent is made, the last step writes the marker of the key. -/
theorem ensures_lastMarker (hkey : key ≠ Key.root)
    (hway : ∀ dir, Key.IsOnWay dir key ↔ dir = key ∨ Key.IsOnWay dir parent)
    (hfile : b.contents key = none) (hmissing : ¬ IsAt suffix key b.contents)
    (hparents : createParents = true ∨
      ∀ parent, Key.parent? key = some parent → IsAt suffix parent b.contents)
    (hfree : ∀ above, Key.IsOnWay above parent → b.contents above ≠ none →
      IsAt suffix above b.contents)
    (hroom : ∀ above, Key.IsOnWay above parent → ¬ IsAt suffix above b.contents →
      (Key.parts key).length ≤ (Key.parts above).length + limit)
    (hmade : Made suffix parent b.contents b'.contents) :
    (createMarker suffix key >>= fun _ => pure true).Ensures (Bucket.environment noFaults)
      (fun _ _ => True) (MakeEnds suffix limit key createParents b) b' := by
  refine Action.ensures_bind (ensures_createMarker hkey ?_)
  intro b'' hstored
  refine ⟨_, rfl, .made hfile hmissing hparents ?_ ?_ ?_⟩
  · intro above habove hobject
    rcases (hway above).1 (Or.inr habove) with rfl | habove
    · exact absurd hfile hobject
    · exact hfree above habove hobject
  · intro above habove hnone
    rcases (hway above).1 (Or.inr habove) with rfl | habove
    · exact Nat.le_add_right _ _
    · exact hroom above habove hnone
  · rw [hstored]
    exact hmade.marker hway hmissing

/-- When the parent exists, only the directory itself is missing. -/
theorem ensures_belowParent (hkey : key ≠ Key.root)
    (hway : ∀ dir, Key.IsOnWay dir key ↔ dir = key ∨ Key.IsOnWay dir parent)
    (hfile : b.contents key = none) (hmissing : ¬ IsAt suffix key b.contents)
    (hparent : Key.parent? key = some parent) (hdirectory : IsAt suffix parent b.contents) :
    (createMarker suffix key >>= fun _ => pure true).Ensures (Bucket.environment noFaults)
      (fun _ _ => True) (MakeEnds suffix limit key createParents b) b := by
  refine ensures_lastMarker hkey hway hfile hmissing (Or.inr ?_)
    (fun above habove _ => hdirectory.above habove)
    (fun above habove hnone => absurd (hdirectory.above habove) hnone) (.of_isAt hdirectory)
  intro parent' hparent'
  rw [hparent] at hparent'
  cases hparent'
  exact hdirectory

/-- When no nested call is left for the missing parent, the call fails. -/
theorem ensures_tooDeep (hparent : Key.isAncestor parent key = true)
    (hlength : (Key.parts key).length = (Key.parts parent).length + 1)
    (hfile : b.contents key = none) (hmissing : ¬ IsAt suffix key b.contents)
    (hnone : ¬ IsAt suffix parent b.contents) (rest : Unit → Action Bool) :
    (discard (throw (.misuse .tooDeep) : Action Bool) >>= rest).Ensures
      (Bucket.environment noFaults) (fun _ _ => True) (MakeEnds suffix 0 key true b) b := by
  refine Action.ensures_bind (Action.ensures_discard (Action.ensures_throw ?_))
  refine ⟨_, rfl, .tooDeep hfile hmissing rfl ?_ hparent hnone (by omega)⟩
  -- every ancestor but the root has fewer parts than the key
  intro dir hdir hroom _
  by_cases hroot : dir = Key.root
  · exact Or.inl hroot
  · have := Key.length_parts_lt hroot hdir
    omega

/-- When the parent is missing, it is made first; an end of that call without the parent is an end
of this one, one level further down. -/
theorem ensures_afterParent {make : Action Bool} (hkey : key ≠ Key.root)
    (hway : ∀ dir, Key.IsOnWay dir key ↔ dir = key ∨ Key.IsOnWay dir parent)
    (hlength : (Key.parts key).length = (Key.parts parent).length + 1)
    (hfile : b.contents key = none) (hmissing : ¬ IsAt suffix key b.contents)
    (hnone : ¬ IsAt suffix parent b.contents)
    (hmake : make.Ensures (Bucket.environment noFaults) (fun _ _ => True)
      (MakeEnds suffix limit parent true b) b) :
    (discard make >>= fun _ => createMarker suffix key >>= fun _ => pure true).Ensures
      (Bucket.environment noFaults) (fun _ _ => True) (MakeEnds suffix (limit + 1) key true b)
      b := by
  have habove : ∀ {above : Key}, Key.IsOnWay above parent → above ≠ key →
      Key.isAncestor above key = true := fun {above} h hne =>
    ((hway above).2 (Or.inr h)).resolve_left hne
  -- an object above is not the key, where there is none
  have hother : ∀ {above : Key}, b.contents above ≠ none → above ≠ key := by
    rintro _ hobject rfl
    exact hobject hfile
  refine Action.ensures_bind (Action.ensures_discard (Program.Ensures.mono hmake ?_))
  rintro _ b' ⟨outcome, rfl, hmakes⟩
  cases hmakes with
  | occupied hobject =>
      exact ⟨_, rfl, .blocked hfile hmissing rfl (habove (Or.inl rfl) (hother hobject)) hobject
        hnone (by omega)⟩
  | present _ hdirectory => exact absurd hdirectory hnone
  | orphan _ _ hparents => cases hparents
  | tooDeep hempty _ _ hfree hup hnot hdeep =>
      refine ⟨_, rfl, .tooDeep hfile hmissing rfl ?_ (habove (Or.inr hup) ?_) hnot (by omega)⟩
      · intro dir hdir hroom hobject
        rcases (hway dir).1 (Or.inr hdir) with rfl | rfl | hdir
        · exact absurd hfile hobject
        · exact absurd hempty hobject
        · exact hfree dir hdir (by omega) hobject
      · rintro rfl
        omega
  | blocked _ _ _ hup hobject hnot hroom =>
      exact ⟨_, rfl, .blocked hfile hmissing rfl (habove (Or.inr hup) (hother hobject)) hobject
        hnot (by omega)⟩
  | made hfree _ _ habove' hroom hmade =>
      refine ensures_lastMarker hkey hway hfile hmissing (Or.inl rfl) ?_ ?_ hmade
      · rintro above (rfl | h) hobject
        · exact absurd hfree hobject
        · exact habove' above h hobject
      · rintro above (rfl | h) hnot
        · omega
        · have := hroom above h hnot
          omega

end Rules

end Directory

namespace Tree

variable {t : Tree} {path : Value} {key : Key} {root : String}

theorem not_queryMayFail_noFaults (pageSize : Value) : ¬ QueryMayFail noFaults pageSize none := by
  rintro (⟨key, fault, hfault⟩ | hcancel | ⟨request, fault, -, hfault⟩)
  · exact hfault
  · exact hcancel rfl
  · exact hfault

theorem isOpen_of_resolve (h : t.resolve path = .ok key) : t.isOpen = true := by
  unfold resolve at h
  split at h
  · cases h
  next hopen => simpa using hopen

/-- The path of a plain key is the canonical path of its parts. -/
theorem toPath_of_isPlain {suffix : String} (h : Key.IsPlain suffix key) :
    Key.toPath key = Path.canonical (Key.parts key) := by
  unfold Key.toPath Path.canonical
  rw [Key.trim_eq_self h.part_ne_empty, Key.intercalate_parts]
  rfl

/-- The parts of a plain key are names. -/
theorem names_of_isPlain {suffix : String} (h : Key.IsPlain suffix key) :
    ∀ name ∈ Key.parts key, name ≠ "" ∧ Key.separator ∉ name.toList := by
  intro name hname
  refine ⟨h.part_ne_empty name hname, ?_⟩
  obtain ⟨part, hpart, rfl⟩ := List.mem_map.1 hname
  rw [String.toList_ofList]
  exact (Key.mem_splitOn hpart).1

/-- The segments of the path of a plain key. -/
theorem segments_of_isPlain {suffix : String} (h : Key.IsPlain suffix key) (root : String) :
    Path.segments (Path.canonical (Key.parts key)) root =
      .ok (Key.names (Path.withoutRoot (Path.canonical (Key.parts key)) root)) := by
  have hnul : '\x00' ∉ (Path.canonical (Key.parts key)).toList := by
    unfold Path.canonical
    rw [String.toList_append, List.mem_append, not_or]
    exact ⟨by decide, Key.not_mem_intercalate (by decide) fun name hname => (h name hname).no_nul⟩
  rw [Path.segments_text hnul, Path.segmentsOf_canonical (names_of_isPlain h)
    (fun name hname => (h name hname).not_relative)]

/-- The path of a plain key resolves to it, unless the root address starts with a separator. -/
theorem resolve_toPath (hopen : t.isOpen = true) (hroot : t.settings.rootUri = .text root)
    (hoff : Text.beginsWith root Key.separatorText = false) (h : Key.IsPlain t.suffix key) :
    t.resolve (Key.toPath key) = .ok key := by
  have hkept : Path.withoutRoot (Path.canonical (Key.parts key)) root =
      Path.canonical (Key.parts key) :=
    Path.withoutRoot_of_not_isUnder (Path.not_isUnder_of_not_beginsWith hoff _)
  have hsegments : Path.segments (Path.canonical (Key.parts key)) root = .ok (Key.parts key) := by
    rw [segments_of_isPlain h, hkept]
    unfold Path.canonical
    rw [Key.names_separator_append, Key.names_intercalate (names_of_isPlain h)]
  have hmarkers : (Key.parts key).find? (Key.isMarker t.suffix) = none := by
    apply List.find?_eq_none.2
    intro name hname
    rw [(h name hname).not_marker]
    exact Bool.false_ne_true
  unfold resolve
  rw [hopen, hroot, Address.segments_text, toPath_of_isPlain h, hsegments]
  simp only [Bool.not_true, Bool.false_eq_true, if_false, Except.mapError, hmarkers,
    Key.intercalate_parts]

/-- Making a directory ends as `Makes` says, by induction on the limit. -/
theorem ensures_makeDirectory (hroot : t.settings.rootUri = .text root)
    (hoff : Text.beginsWith root Key.separatorText = false) (limit : Nat) (path : Value)
    (createParents : Bool) {key : Key} (b : Bucket) (hresolve : t.resolve path = .ok key)
    (hkey : key ≠ Key.root) :
    (t.makeDirectory (limit + 1) path createParents).Ensures (Bucket.environment noFaults)
      (fun _ _ => True) (Directory.MakeEnds t.suffix limit key createParents b) b := by
  -- the call for a missing parent is a step of the same kind, with one call less to go
  induction limit using Nat.strongRecOn generalizing path createParents key with
  | ind limit ih =>
      have hask : ∀ q : Request, q.isQuery → True := fun _ _ => trivial
      have hnever := not_queryMayFail_noFaults (.int 1)
      obtain ⟨parent, hparent, hway, habove⟩ :=
        ((isPath_of_resolve hresolve).isPlain hkey).exists_parent
      refine Action.ensures_bind (ensures_key ?_)
      rw [hresolve]
      dsimp only
      rw [if_neg fun h => hkey (eq_of_beq h)]
      refine Action.ensures_bind (ensures_statusOf loud_noFaults trivial ?_ ?_ ?_)
      · intro object hobject
        refine Action.ensures_bind (Action.ensures_fail ⟨_, rfl, .occupied ?_⟩)
        rw [Bucket.contents_of_find? hobject]
        exact Option.some_ne_none _
      · intro hobject
        have hfile := Bucket.contents_eq_none.2 hobject
        refine Action.ensures_bind (Directory.ensures_exists? loud_noFaults hask ?_ ?_
          fun failure _ hfail => absurd hfail hnever)
        · intro hdirectory
          exact ⟨_, rfl, .present hfile hdirectory⟩
        · intro hmissing
          dsimp only
          rw [if_neg Bool.false_ne_true, hparent]
          dsimp only
          rcases habove with rfl | ⟨hplain, hlength⟩
          · exact Directory.ensures_belowParent hkey hway hfile hmissing hparent (Or.inl rfl)
          · rw [if_pos (bne_iff_ne.2 hplain.ne_root)]
            refine Action.ensures_bind (Directory.ensures_exists? loud_noFaults hask ?_ ?_
              fun failure _ hfail => absurd hfail hnever)
            · exact Directory.ensures_belowParent hkey hway hfile hmissing hparent
            · intro hnone
              cases createParents with
              | false =>
                  exact Action.ensures_bind (Action.ensures_fail
                    ⟨_, rfl, .orphan hfile hmissing rfl hparent hnone⟩)
              | true =>
                  cases limit with
                  | zero =>
                      have hup : Key.isAncestor parent key = true := by
                        rcases (hway parent).2 (Or.inr (Or.inl rfl)) with rfl | hup
                        · omega
                        · exact hup
                      exact Directory.ensures_tooDeep hup hlength hfile hmissing hnone _
                  | succ limit =>
                      refine Directory.ensures_afterParent hkey hway hlength hfile hmissing hnone ?_
                      refine ih limit (Nat.lt_succ_self limit) _ true ?_ hplain.ne_root
                      exact resolve_toPath (isOpen_of_resolve hresolve) hroot hoff hplain
      · intro failure _ ⟨fault, hfault⟩
        exact hfault.elim

-- with no room for a call inside the first, the missing parent stops it before anything is stored
example :
    let t : Tree := { keyByKey with nestingLimit := 0 }
    let (outcome, m) := (t.mkdirs "/s/c/d" true).perform (Memory.backend "b") shelf
    outcome = some (.error (.misuse .tooDeep)) ∧ (m.bucket "b").keys = (shelf.bucket "b").keys :=
  ⟨rfl, by decide +kernel⟩

end Tree

end BucketTree
