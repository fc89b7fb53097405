import BucketTree.Proofs.Move.Cancellation
import BucketTree.Proofs.Move.Safety

/-!
# Renames without copies

A store may fail any copy as unsupported; the object is then read and written instead. On a store
that fails nothing else, and with a token that stays unset, a move whose checks succeed returns. So
the contents before a rename determine its outcome (`rename_settled`), as well as the pairs moved
and the contents afterwards (`RenameCompleted.moved_unique`, `RenameCompleted.contents_unique`).
Renames on two such stores with the same contents are therefore indistinguishable
(`rename_independent_of_copies`); one of the two may support every copy.
-/

set_option autoImplicit false

namespace BucketTree

/-! ## One bucket for another -/

namespace Bucket

variable {b b' : Bucket}

/-- The contents determine the keys. -/
theorem keys_congr (h : b.contents = b'.contents) : b.keys = b'.keys := by
  refine List.Pairwise.eq_of_mem_iff b.keys_increasing b'.keys_increasing fun key => ?_
  rw [mem_keys, mem_keys, h]

end Bucket

/-- The contents determine the objects of a directory. -/
theorem Move.objectsOf_congr {b b' : Bucket} (h : b.contents = b'.contents) (suffix : String)
    (source : Key) : objectsOf suffix source b = objectsOf suffix source b' := by
  unfold objectsOf Bucket.keysUnder
  rw [Bucket.keys_congr h, h]

/-- The relation `Relocates` is functional. -/
theorem Relocates.image_unique {suffix : String} {before : Contents} {source destination : Key}
    {key image image' : Key} (h : Relocates suffix before source destination key image)
    (h' : Relocates suffix before source destination key image') : image = image' := by
  generalize hkey : key = key' at h'
  cases h with
  | file hsource =>
      cases h' with
      | file => rfl
      | below hnone => exact absurd hnone hsource
      | marker hnone => exact absurd hnone hsource
  | below hnone rest =>
      cases h' with
      | file hsource => exact absurd hnone hsource
      | below _ rest' => rw [(String.append_right_inj _).1 hkey]
      | marker _ =>
          rw [String.append_assoc, String.append_right_inj] at hkey
          rw [String.append_assoc, hkey]
  | marker hnone =>
      cases h' with
      | file hsource => exact absurd hnone hsource
      | below _ rest' =>
          rw [String.append_assoc, String.append_right_inj] at hkey
          rw [String.append_assoc, hkey]
      | marker _ => rfl

/-- Two lists of pairs in a functional relation are equal if their first components are. -/
theorem eq_of_map_fst {α β : Type} (relates : α → β → Prop)
    (hunique : ∀ {a b b'}, relates a b → relates a b' → b = b') {pairs pairs' : List (α × β)}
    (hfst : pairs.map (·.1) = pairs'.map (·.1)) (h : ∀ a b, (a, b) ∈ pairs → relates a b)
    (h' : ∀ a b, (a, b) ∈ pairs' → relates a b) : pairs = pairs' := by
  induction pairs generalizing pairs' with
  | nil => exact (List.map_eq_nil_iff.1 hfst.symm).symm
  | cons e rest ih =>
      obtain ⟨a, b⟩ := e
      cases pairs' with
      | nil => cases hfst
      | cons e' rest' =>
          obtain ⟨a', b'⟩ := e'
          obtain ⟨rfl, hrest⟩ := List.cons.inj hfst
          obtain rfl := hunique (h a b List.mem_cons_self) (h' a b' List.mem_cons_self)
          rw [ih hrest (fun a b hm => h a b (List.mem_cons_of_mem _ hm))
            fun a b hm => h' a b (List.mem_cons_of_mem _ hm)]

namespace RenameCompleted

variable {t : Tree} {sourcePath destinationPath : Value} {before before' after after' : Bucket}
  {moved moved' : Moved}

/-- The contents before a completed rename determine what it returned. -/
theorem moved_unique (h : RenameCompleted t sourcePath destinationPath before moved after)
    (h' : RenameCompleted t sourcePath destinationPath before' moved' after')
    (hsame : before.contents = before'.contents) : moved = moved' := by
  obtain ⟨source, destination, pairs⟩ := moved
  obtain ⟨source', destination', pairs'⟩ := moved'
  obtain rfl : source = source' :=
    Except.ok.inj (h.source_resolves.symm.trans h'.source_resolves)
  obtain rfl : destination = destination' :=
    Except.ok.inj (h.destination_resolves.symm.trans h'.destination_resolves)
  have hpairs : pairs = pairs' := by
    have hfile := h.pairs_file
    have hfile' := h'.pairs_file
    have hdirectory := h.pairs_directory
    have hdirectory' := h'.pairs_directory
    have hrelocates := h'.pairs_relocate
    rw [← hsame] at hfile' hdirectory' hrelocates
    by_cases hnone : before.contents source = none
    · -- the old keys are the objects of the directory in their order, and each tells its new key
      refine eq_of_map_fst (Relocates t.suffix before.contents source destination)
        Relocates.image_unique ?_ h.pairs_relocate hrelocates
      exact (hdirectory hnone).trans
        ((Move.objectsOf_congr hsame _ _).trans (hdirectory' hnone).symm)
    · exact (hfile hnone).trans (hfile' hnone).symm
  rw [hpairs]

/-- The contents before a completed rename determine the contents after it. -/
theorem contents_unique (h : RenameCompleted t sourcePath destinationPath before moved after)
    (h' : RenameCompleted t sourcePath destinationPath before' moved after')
    (hsame : before.contents = before'.contents) : after.contents = after'.contents := by
  have hmoved := h'.objects_moved
  have hkept := h'.others_kept
  rw [← hsame] at hmoved hkept
  funext key
  by_cases hany : ∃ a image, Relocates t.suffix before.contents moved.source moved.destination a
      image ∧ before.contents a ≠ none ∧ (key = a ∨ key = image)
  · -- the key is an old or a new one of an object that has moved
    obtain ⟨a, image, hrelocates, hpresent, rfl | rfl⟩ := hany
    · rw [(h.objects_moved _ _ hrelocates hpresent).1, (hmoved _ _ hrelocates hpresent).1]
    · rw [(h.objects_moved _ _ hrelocates hpresent).2, (hmoved _ _ hrelocates hpresent).2]
  · have hother : ∀ a image, Relocates t.suffix before.contents moved.source moved.destination a
        image → before.contents a ≠ none → key ≠ a ∧ key ≠ image := by
      intro a image hrelocates hpresent
      exact ⟨fun heq => hany ⟨a, image, hrelocates, hpresent, Or.inl heq⟩,
        fun heq => hany ⟨a, image, hrelocates, hpresent, Or.inr heq⟩⟩
    rw [h.others_kept key hother, hkept key hother]

end RenameCompleted

/-! ## A store that refuses copies only -/

/-- The environment where copies may be unsupported, nothing else fails, and the given token is
unset. -/
abbrev Bucket.copying (cancel : Option Token) : Environment Bucket :=
  (Bucket.environment unsupportedCopies).unset cancel

/-- In that environment, an open listing serves its next chunk. -/
theorem Listing.ensures_next_copying {cancel : Option Token} {l : Listing} {b : Bucket}
    {names : List ServedName} {sends : Request → Bucket → Prop} {served : Bucket → Prop}
    {failed : Fault → Bucket → Prop} (hopen : l.isDone = false) (hcancel : l.cancel = cancel)
    (hleft : l.namesLeft b = names) (hsend : sends (.list l.pageRequest) b) (hserved : served b) :
    l.next.Ensures (Bucket.copying cancel) sends (Serves l names served failed) b := by
  subst hcancel
  unfold next
  rw [hopen]
  refine Program.ensures_bind (Program.ensures_isCancelled_unset ?_)
  refine Program.ensures_bind (Program.ensures_request hsend ?_)
  intro outcome b' hanswer
  cases hanswer with
  | failed hfault => exact hfault.elim
  | absent hneeds hkey => cases hneeds
  | @list _ _ size hsize =>
      dsimp only
      rw [l.chunkOf_page b size, hleft]
      exact ⟨size, hsize, rfl, rfl, hserved⟩

namespace Move

section Directory

variable {suffix : String} {overwrite : Bool} {b₀ b : Bucket} {source destination key : Key}
  {left : List Key} {record : List (Key × Key)} {cancel : Option Token}

/-- One round of the loop moves the first key left. -/
theorem ensures_visit_copying (hr : Renamable suffix overwrite b₀.contents source destination)
    (hdirectory : b₀.contents source = none)
    (h : Remaining suffix b₀.contents source destination (b₀.keysUnder (source ++ "/"))
      (key :: left) record b) :
    (visit source destination cancel key).Ensures (Bucket.copying cancel) (fun _ _ => True)
      (Walk.Ends (fun _ => Remaining suffix b₀.contents source destination
        (b₀.keysUnder (source ++ "/")) left) (fun _ _ _ => False) fun _ => False) record b := by
  refine Walk.ensures_bind (Walk.ensures_ofAction (Action.ensures_checkCancelled_unset ?_))
  refine Walk.Ensures.mono (Program.Ensures.mono_sends
    (ensures_moveNext_served hr hdirectory h).unset fun _ _ _ => trivial) ?_
  rintro (_ | ⟨fault | _, record'⟩) b' hend
  · exact hend
  · exact hend
  · exact hend.2

/-- The loop moves every object below the directory. -/
theorem ensures_below_copying {pageLimit : Nat} {pageSize : Value}
    (hr : Renamable suffix overwrite b₀.contents source destination)
    (hdirectory : b₀.contents source = none)
    (hpages : (b₀.keysUnder (source ++ "/")).length + 2 ≤ pageLimit) :
    ((Listing.start (Key.directoryPrefix source) true pageSize cancel).walk
      (fun chunk => chunk.keys.forM (visit source destination cancel)) pageLimit).Ensures
      (Bucket.copying cancel) (fun _ _ => True)
      (Walk.Ends (fun _ => Remaining suffix b₀.contents source destination
        (b₀.keysUnder (source ++ "/")) []) (fun _ _ _ => False) fun _ => False) [] b₀ := by
  rw [Key.directoryPrefix_eq hr.source_ne_root]
  refine Listing.ensures_walk_keys id ?_ ?_ ?_ ?_ ⟨rfl, .start⟩
  · intro left record b h
    exact h.keysUnder_eq hr hdirectory
  · intro l left record b _ hcancel hopen h _ hnames
    exact Listing.ensures_next_copying hopen hcancel hnames trivial h
  · intro key left record b h
    exact ensures_visit_copying hr hdirectory h
  · intro hfew
    exact absurd hpages (Nat.not_le.2 hfew)

/-- The move of the marker does not fail. -/
theorem ensures_markerStep_copying
    (hr : Renamable suffix overwrite b₀.contents source destination) :
    (markerStep suffix source destination).Ensures (Bucket.copying cancel) (fun _ _ => True)
      (Walk.Ends (fun _ _ _ => True) (fun _ _ _ => False) fun _ => False) record b := by
  refine Walk.ensures_bind (Walk.ensures_ofAction (Action.Ensures.unset
    (Directory.ensures_markerStatus loud_unsupportedCopies hr.source_ne_root (fun _ _ => trivial)
      ?_ ?_ ?_)))
  · intro object hobject
    have hpresent : b.contents (source ++ suffix) ≠ none := by
      rw [Bucket.contents_of_find? hobject]
      exact Option.some_ne_none _
    have hne : source ++ suffix ≠ destination ++ suffix := fun heq =>
      hr.ne ((String.append_left_inj _).1 heq)
    refine Walk.ensures_bind (Walk.ensures_ofAction ?_)
    rw [Key.marker_eq hr.source_ne_root]
    refine Walk.ensures_bind (Walk.ensures_ofAction ?_)
    rw [Key.marker_eq hr.destination_ne_root]
    have hstep : (step source destination (source ++ suffix) (destination ++ suffix)).Ensures
        (Bucket.environment unsupportedCopies) (fun _ _ => True)
        (Walk.Ends (fun _ _ _ => True) (fun _ _ _ => False) fun _ => False) record b := by
      apply ensures_step loud_unsupportedCopies hne hpresent
      · exact fun _ _ => trivial
      · exact fun _ _ => trivial
      · exact fun _ _ => trivial
      · exact fun _ hmay => absurd hmay not_mayFail_unsupportedCopies
      · exact fun _ _ hmay => absurd hmay not_mayFail_unsupportedCopies
    exact hstep.unset
  · exact fun _ => trivial
  · rintro failure _ ⟨_, hfault⟩
    exact hfault.elim

/-- The move of a directory does not fail. -/
theorem ensures_directory_copying {settings : Settings} {pageLimit : Nat}
    (hr : Renamable settings.folderSuffix overwrite b₀.contents source destination)
    (hdirectory : b₀.contents source = none)
    (hpages : (b₀.keysUnder (source ++ "/")).length + 2 ≤ pageLimit) :
    (directory settings pageLimit source destination cancel).Ensures (Bucket.copying cancel)
      (fun _ _ => True) (fun r _ => ∃ moved, r = some (.ok moved)) b₀ := by
  have hcontents : (contents settings pageLimit source destination cancel).Ensures
      (Bucket.copying cancel) (fun _ _ => True)
      (Walk.Ends (fun _ _ _ => True) (fun _ _ _ => False) fun _ => False) [] b₀ := by
    refine Walk.ensures_bind ((ensures_below_copying hr hdirectory hpages).mono ?_)
    rintro (_ | ⟨fault | _, record⟩) b hend
    · exact hend
    · exact hend
    · refine Walk.ensures_bind (Walk.ensures_ofAction (Action.ensures_checkCancelled_unset ?_))
      exact ensures_markerStep_copying hr
  refine Action.ensures_bind (Walk.ensures_collect (hcontents.mono ?_))
  rintro (_ | ⟨fault | _, record⟩) b hend
  · exact hend.elim
  · exact hend.elim
  · exact ⟨_, rfl⟩

end Directory

end Move

namespace Tree

variable {t : Tree} {sourcePath destinationPath : Value} {overwrite : Bool} {cancel : Option Token}
  {source destination : Key} {b : Bucket}

/-- The move of a file does not fail. -/
theorem ensures_file_copying (hne : source ≠ destination) (hpresent : b.contents source ≠ none) :
    (Move.file source destination).Ensures (Bucket.copying cancel) (fun _ _ => True)
      (fun r _ => ∃ moved, r = some (.ok moved)) b := by
  have hfile : (Move.file source destination).Ensures (Bucket.environment unsupportedCopies)
      (fun _ _ => True) (fun r _ => ∃ moved, r = some (.ok moved)) b := by
    refine Move.ensures_file loud_unsupportedCopies hne hpresent (fun _ _ => trivial)
      (fun _ _ => trivial) (fun _ _ => ⟨_, rfl⟩) ?_ ?_
    · exact fun _ hmay => absurd hmay Move.not_mayFail_unsupportedCopies
    · exact fun _ _ hmay => absurd hmay Move.not_mayFail_unsupportedCopies
  exact hfile.unset

/-- The contents decide which course a rename takes after its paths are accepted. -/
theorem ensures_rename_copying {post : Option (Except Fault Moved) → Bucket → Prop}
    (hends : t.ends sourcePath destinationPath = .ok (source, destination))
    (htaken : ¬ IsFree t.suffix (overwrite && (b.contents source).isSome) b.contents destination →
      post (some (.error (.known
        (.alreadyExists destination (.destinationExists destination))))) b)
    (habsent : IsFree t.suffix false b.contents destination → b.contents source = none →
      ¬ Directory.IsAt t.suffix source b.contents → post (some (.error (.known
        (.notFound source (.noRenameSource (Key.toPath source)))))) b)
    (hfile : IsFree t.suffix overwrite b.contents destination → b.contents source ≠ none →
      (Move.file source destination).Ensures (Bucket.copying cancel) (fun _ _ => True) post b)
    (hdirectory : IsFree t.suffix false b.contents destination → b.contents source = none →
      Directory.IsAt t.suffix source b.contents →
      (Move.directory t.settings t.pageLimit source destination cancel).Ensures
        (Bucket.copying cancel) (fun _ _ => True) post b) :
    (t.rename sourcePath destinationPath cancel overwrite).Ensures (Bucket.copying cancel)
      (fun _ _ => True) post b := by
  refine ensures_rename_cases loud_unsupportedCopies (fun h => h.unset) (fun _ _ => trivial)
    (fun _ _ hmay => absurd hmay not_queryMayFail_unsupportedCopies) ?_ ?_ ?_ ?_ ?_
  · intro fault hrefused
    cases hends.symm.trans hrefused
  · intro _ _ hok
    cases hends.symm.trans hok
    exact htaken
  · intro _ _ hok
    cases hends.symm.trans hok
    exact habsent
  · intro _ _ hok
    cases hends.symm.trans hok
    exact hfile
  · intro _ _ hok
    cases hends.symm.trans hok
    exact hdirectory

/-- A rename whose paths are refused ends with that refusal. -/
theorem ensures_rename_refused {fault : Fault}
    (hends : t.ends sourcePath destinationPath = .error fault) :
    (t.rename sourcePath destinationPath cancel overwrite).Ensures (Bucket.copying cancel)
      (fun _ _ => True) (fun r b' => r = some (.error fault) ∧ b' = b) b := by
  refine ensures_rename_cases loud_unsupportedCopies (fun h => h.unset) (fun _ _ => trivial)
    (fun _ _ hmay => absurd hmay not_queryMayFail_unsupportedCopies) ?_ ?_ ?_ ?_ ?_
  · intro fault' hrefused
    cases hends.symm.trans hrefused
    exact ⟨rfl, rfl⟩
  all_goals
    intro _ _ hok
    cases hends.symm.trans hok

/-- The contents determine the outcome of a rename: it ends with one fault on all buckets with these
contents, or it returns on all of them. -/
theorem rename_settled (t : Tree) (sourcePath destinationPath : Value) (cancel : Option Token)
    (overwrite : Bool) (contents : Contents) :
    (∃ fault, ∀ b : Bucket, b.contents = contents →
      (t.rename sourcePath destinationPath cancel overwrite).Ensures (Bucket.copying cancel)
        (fun _ _ => True) (fun r b' => r = some (.error fault) ∧ b' = b) b) ∨
    ∀ b : Bucket, b.contents = contents → b.keys.length + 2 ≤ t.pageLimit →
      (t.rename sourcePath destinationPath cancel overwrite).Ensures (Bucket.copying cancel)
        (fun _ _ => True) (fun r _ => ∃ moved, r = some (.ok moved)) b := by
  -- paths that do not resolve, or do not fit, are refused before the store is asked
  rcases hends : t.ends sourcePath destinationPath with fault | ⟨source, destination⟩
  · exact Or.inl ⟨fault, fun b _ => ensures_rename_refused hends⟩
  obtain ⟨-, -, hfit⟩ := ends_eq_ok hends
  have hapart := checkEnds_eq_ok hfit
  by_cases hfree : IsFree t.suffix (overwrite && (contents source).isSome) contents destination
  swap
  · -- something is at the destination
    refine Or.inl ⟨.known (.alreadyExists destination (.destinationExists destination)), ?_⟩
    rintro b rfl
    have htaken : b.contents source = none → ¬ IsFree t.suffix false b.contents destination := by
      intro hnone
      rwa [hnone, Option.isSome_none, Bool.and_false] at hfree
    refine ensures_rename_copying hends (fun _ => ⟨rfl, rfl⟩)
      (fun hnot hnone => absurd hnot (htaken hnone)) ?_ fun hnot hnone => absurd hnot (htaken hnone)
    intro hnot hpresent
    rw [Option.isSome_iff_ne_none.2 hpresent, Bool.and_true] at hfree
    exact absurd hnot hfree
  -- what is at the source decides between the ways to move it
  by_cases hfile : contents source = none
  swap
  · refine Or.inr ?_
    rintro b rfl -
    refine ensures_rename_copying hends (fun hnot => absurd hfree hnot)
      (fun _ hnone => absurd hnone hfile) ?_ (fun _ hnone => absurd hnone hfile)
    exact fun _ _ => ensures_file_copying hapart.2.2.1 hfile
  by_cases hdirectory : Directory.IsAt t.suffix source contents
  · refine Or.inr ?_
    rintro b rfl hpages
    refine ensures_rename_copying hends (fun hnot => absurd hfree hnot)
      (fun _ _ hnot => absurd hdirectory hnot) (fun _ hpresent => absurd hfile hpresent) ?_
    intro hfree _ _
    have hr : Renamable t.suffix overwrite b.contents source destination :=
      renamable_directory hfile hdirectory hapart hfree t.settings.separator_not_mem
    have hfewer := b.length_keysUnder_le (source ++ "/")
    exact Move.ensures_directory_copying hr hfile (by omega)
  · refine Or.inl ⟨.known (.notFound source (.noRenameSource (Key.toPath source))), ?_⟩
    rintro b rfl
    exact ensures_rename_copying hends (fun hnot => absurd hfree hnot)
      (fun _ _ _ => ⟨rfl, rfl⟩) (fun _ hpresent => absurd hfile hpresent)
      (fun _ _ hat => absurd hat hdirectory)

/-- Renames on two stores with the same contents, where any copies may be unsupported and nothing
else fails, have the same outcome and leave the same contents. They move every object of the source,
or change nothing. -/
theorem rename_independent_of_copies {τ τ' : Type} (backend : Backend τ) (view : τ → Bucket)
    (backend' : Backend τ') (view' : τ' → Bucket) {s : τ} {s' : τ'} (t : Tree)
    (sourcePath destinationPath : Value) (cancel : Option Token) (overwrite : Bool)
    (hsame : (view s).contents = (view' s').contents)
    (hpages : (view s).keys.length + 2 ≤ t.pageLimit)
    (hunset : ∀ name, cancel = some name → ∀ s, backend.isCancelled name s = false)
    (hunset' : ∀ name, cancel = some name → ∀ s', backend'.isCancelled name s' = false)
    (hrun : (t.rename sourcePath destinationPath cancel overwrite).run.Undisturbed backend view
      unsupportedCopies s)
    (hrun' : (t.rename sourcePath destinationPath cancel overwrite).run.Undisturbed backend' view'
      unsupportedCopies s') :
    ∃ outcome,
      ((t.rename sourcePath destinationPath cancel overwrite).perform backend s).1 =
        some outcome ∧
      ((t.rename sourcePath destinationPath cancel overwrite).perform backend' s').1 =
        some outcome ∧
      (view ((t.rename sourcePath destinationPath cancel overwrite).perform backend s).2).contents =
        (view' ((t.rename sourcePath destinationPath cancel overwrite).perform backend'
          s').2).contents ∧
      (∀ moved, outcome = .ok moved →
        RenameCompleted t sourcePath destinationPath (view s) moved
          (view ((t.rename sourcePath destinationPath cancel overwrite).perform backend s).2)) ∧
      ∀ fault, outcome = .error fault →
        view ((t.rename sourcePath destinationPath cancel overwrite).perform backend s).2 =
          view s := by
  rcases rename_settled t sourcePath destinationPath cancel overwrite (view s).contents with
    ⟨fault, hrefused⟩ | hreturns
  · -- both are refused, and nothing has changed
    obtain ⟨houtcome, hkept⟩ := (hrefused (view s) rfl).run_undisturbed_unset hunset hrun
    obtain ⟨houtcome', hkept'⟩ := (hrefused (view' s') hsame.symm).run_undisturbed_unset hunset'
      hrun'
    have hleft := (congrArg Bucket.contents hkept).trans
      (hsame.trans (congrArg Bucket.contents hkept').symm)
    refine ⟨.error fault, houtcome, houtcome', hleft, ?_, fun _ _ => hkept⟩
    intro moved heq
    cases heq
  · have hpages' : (view' s').keys.length + 2 ≤ t.pageLimit := Bucket.keys_congr hsame ▸ hpages
    obtain ⟨moved, houtcome⟩ := (hreturns (view s) rfl hpages).run_undisturbed_unset hunset hrun
    obtain ⟨moved', houtcome'⟩ := (hreturns (view' s') hsame.symm hpages').run_undisturbed_unset
      hunset' hrun'
    -- both have completed, from the same contents
    have hcompleted := ((ensures_rename loud_unsupportedCopies t sourcePath destinationPath cancel
      overwrite _).run_undisturbed hrun).2.completed houtcome
    have hcompleted' := ((ensures_rename loud_unsupportedCopies t sourcePath destinationPath cancel
      overwrite _).run_undisturbed hrun').2.completed houtcome'
    obtain rfl := hcompleted.moved_unique hcompleted' hsame
    refine ⟨.ok moved, houtcome, houtcome', hcompleted.contents_unique hcompleted' hsame, ?_, ?_⟩
    · intro _ heq
      obtain rfl := Except.ok.inj heq
      exact hcompleted
    · intro fault heq
      cases heq

/-- The schedule under which the copy of the object at `key` is unsupported. -/
def notCopying (key : Key) : Schedule where
  raised
    | .copy source _ :: _ => if source = key then some (.unsupported none) else none
    | _ => none
  isCancelled _ _ := false

theorem isLoud_notCopying (key : Key) : (notCopying key).IsLoud := by
  intro requests fault h
  unfold notCopying at h
  dsimp only at h
  split at h
  · split at h <;> cases h
    rfl
  · cases h

/-- One object of four is read and written, and the outcome is the same as with copies
throughout. -/
theorem rename_independent_of_copies_shelf :
    ∃ moved,
      ((keyByKey.rename "/s" "/t" none false).perform ((notCopying "s//b").backend "b")
        ⟨shelf, []⟩).1 = some (.ok moved) ∧
      ((keyByKey.rename "/s" "/t" none false).perform (Memory.backend "b") shelf).1 =
        some (.ok moved) ∧
      (((keyByKey.rename "/s" "/t" none false).perform ((notCopying "s//b").backend "b")
        ⟨shelf, []⟩).2.memory.bucket "b").contents =
        (((keyByKey.rename "/s" "/t" none false).perform (Memory.backend "b")
          shelf).2.bucket "b").contents ∧
      RenameCompleted keyByKey "/s" "/t" (shelf.bucket "b") moved
        (((keyByKey.rename "/s" "/t" none false).perform ((notCopying "s//b").backend "b")
          ⟨shelf, []⟩).2.memory.bucket "b") := by
  have hmixed : (keyByKey.rename "/s" "/t" none false).run.Undisturbed
      ((notCopying "s//b").backend "b") (fun s => s.memory.bucket "b") unsupportedCopies
      ⟨shelf, []⟩ := by
    refine Program.undisturbed_of_served
      (Schedule.backend_follows (isLoud_notCopying "s//b") "b") Schedule.loud_failsLoudly
      (fun q fault => q.operation == .copy && fault.isUnsupported) ?_ (by decide +kernel)
    intro q fault hadmits
    cases q with
    | copy source destination => exact hadmits
    | _ => cases hadmits
  have hnative : (keyByKey.rename "/s" "/t" none false).run.Undisturbed (Memory.backend "b")
      (Memory.bucket "b") unsupportedCopies shelf :=
    Program.undisturbed_of_served (Memory.backend_follows "b") Memory.loud_refuses
      (fun _ _ => false) (fun _ _ h => nomatch h) (by decide +kernel)
  have hreturns : (Action.returned? ((keyByKey.rename "/s" "/t" none false).perform
      (Memory.backend "b") shelf).1).isSome = true := by decide +kernel
  obtain ⟨moved, hmoved⟩ := Option.isSome_iff_exists.1 hreturns
  have hreturned := Action.returned?_eq_some hmoved
  obtain ⟨outcome, houtcome, houtcome', hsame, hcompleted, -⟩ :=
    rename_independent_of_copies ((notCopying "s//b").backend "b") (fun s => s.memory.bucket "b")
      (Memory.backend "b") (Memory.bucket "b") keyByKey "/s" "/t" none false rfl
      (by decide +kernel) nofun nofun hmixed hnative
  obtain rfl := Option.some.inj (houtcome'.symm.trans hreturned)
  exact ⟨moved, houtcome, hreturned, hsame, hcompleted moved rfl⟩

end Tree

end BucketTree
