import BucketTree.Proofs.Mount.Operations
import BucketTree.Proofs.Tree.Agreement
import BucketTree.Proofs.Tree.Making

/-!
# Making and removing entries

`mkdir`, `rmdir` and `unlink` of a mount first ask the tree what is at the path, and then change it.
On a store without faults, the contents of the bucket decide whether a call is allowed
(`EntryChange.IsAllowed`). An allowed call has the effect `EntryChange.effect` on one object; any
other call fails with the error number of `EntryChange.Refuses` and changes nothing
(`EntryChange.settled`).
-/

set_option autoImplicit false

namespace BucketTree

variable {α β σ : Type}

/-! ## What an operation of a mount ensures -/

namespace MountAction

/-- The predicate `Program.Ensures` for the program of an operation on a table of open files. -/
def Ensures (env : Environment σ) (post : Option (Except Refusal α × Mount) → σ → Prop)
    (a : MountAction α) (m : Mount) (s : σ) : Prop :=
  (a.run.run m).Ensures env (fun _ _ => True) post s

variable {env : Environment σ} {m : Mount} {s : σ}

theorem ensures_pure {post : Option (Except Refusal α × Mount) → σ → Prop} {x : α}
    (h : post (some (.ok x, m)) s) : MountAction.Ensures env post (pure x) m s := h

/-- Rule for `refuse e >>= f`: the refusal ends the operation. -/
theorem ensures_refuse_bind {post : Option (Except Refusal β × Mount) → σ → Prop} {e : Errno}
    {f : α → MountAction β} (h : post (some (.error (.errno e), m)) s) :
    MountAction.Ensures env post (Mount.refuse e >>= f) m s := h

/-- Rule for `reported a >>= f`: a result of the action is passed to `f`, and a fault is
reported. -/
theorem ensures_reported_bind {post : Option (Except Refusal β × Mount) → σ → Prop} {a : Action α}
    {f : α → MountAction β}
    (h : a.Ensures env (fun _ _ => True)
      (fun r s =>
        match r with
        | some (.ok x) => (f x).Ensures env post m s
        | some (.error fault) => post (some (.error (Mount.reportedAs fault), m)) s
        | none => post none s) s) :
    MountAction.Ensures env post (Mount.reported a >>= f) m s := by
  unfold Mount.reported Ensures
  rw [bind_assoc, run_lift_bind]
  refine Program.ensures_bind (Program.Ensures.mono h ?_)
  rintro (_ | fault | x) s hr
  · exact hr
  · cases hfailure : fault.isFailure <;> simp_all [Mount.reportedAs] <;> exact hr
  · exact hr

theorem ensures_reported {post : Option (Except Refusal α × Mount) → σ → Prop} {a : Action α}
    (h : a.Ensures env (fun _ _ => True)
      (fun r s => post (r.map fun outcome => (outcome.mapError Mount.reportedAs, m)) s) s) :
    (Mount.reported a).Ensures env post m s := by
  rw [← bind_pure (Mount.reported a)]
  refine ensures_reported_bind (Program.Ensures.mono h ?_)
  rintro (_ | fault | x) s hr <;> exact hr

end MountAction

/-! ## The calls on the tree -/

namespace Tree

variable {t : Tree} {path : Value} {key : Key} {b : Bucket}

/-- The operation `mkdirs` on the root finds an existing directory. -/
theorem ensures_mkdirs_root (hresolve : t.resolve path = .ok Key.root) (createParents : Bool)
    {post : Option (Except Fault Bool) → Bucket → Prop} (h : post (some (.ok false)) b) :
    (t.mkdirs path createParents).Ensures (Bucket.environment noFaults) (fun _ _ => True) post
      b := by
  refine Action.ensures_bind (ensures_key ?_)
  rw [hresolve]
  exact Action.ensures_pure h

/-- The operation `status` of the root is that of a directory. -/
theorem ensures_status_root (hresolve : t.resolve path = .ok Key.root)
    {post : Option (Except Fault FileStatus) → Bucket → Prop}
    (h : ∀ status, status.isDirectory = true → post (some (.ok status)) b) :
    (t.status path).Ensures (Bucket.environment noFaults) (fun _ _ => True) post b := by
  refine Action.ensures_bind (ensures_key ?_)
  rw [hresolve]
  exact Action.ensures_pure (h _ rfl)

/-- The operation `delete` refuses the root. -/
theorem ensures_delete_root (hresolve : t.resolve path = .ok Key.root) (isRecursive : Bool)
    (cancel : Option Token) {post : Option (Except Fault Unit) → Bucket → Prop}
    (h : post (some (.error (.known (.ofRefusal ⟨.rootDelete, path⟩)))) b) :
    (t.delete path isRecursive cancel).Ensures (Bucket.environment noFaults) (fun _ _ => True)
      post b := by
  refine Action.ensures_bind (ensures_key ?_)
  rw [hresolve]
  exact Action.ensures_bind (Action.ensures_fail h)

theorem not_deleteMayFail_noFaults : ¬ t.DeleteMayFail noFaults none := by
  rintro (⟨key, fault, hhead | hdelete⟩ | hbreak | hbreak)
  · exact hhead
  · exact hdelete
  · exact not_queryMayFail_noFaults _ (Or.inr hbreak)
  · exact not_queryMayFail_noFaults _ (Or.inr hbreak)

/-- When a directory with nothing below it is gone, its marker was removed and nothing else. -/
theorem contents_of_directoryGone {suffix : String} {before after : Contents}
    (hgone : DirectoryGone suffix key before after)
    (hbelow : ∀ rest, before (key ++ "/" ++ rest) = none) :
    after = Function.update before (key ++ suffix) none := by
  funext other
  by_cases hmarker : other = key ++ suffix
  · rw [hmarker, Function.update_self, hgone.marker_gone]
  rw [Function.update_of_ne hmarker]
  by_cases hunder : ∃ rest, other = key ++ "/" ++ rest
  · obtain ⟨rest, rfl⟩ := hunder
    rw [hgone.below_gone, hbelow]
  · exact hgone.others_kept other hmarker fun rest heq => hunder ⟨rest, heq⟩

/-- A deletion that is not recursive removes the object, or the marker of a directory with nothing
below it, or it is refused and changes nothing. -/
theorem ensures_deleteEntry (hresolve : t.resolve path = .ok key) (hroot : key ≠ Key.root)
    {post : Option (Except Fault Unit) → Bucket → Prop}
    (hfile : b.contents key ≠ none →
      ∀ b', b'.contents = Function.update b.contents key none → post (some (.ok ())) b')
    (hempty : b.contents key = none → b.contents (key ++ t.suffix) ≠ none →
      (∀ rest, b.contents (key ++ "/" ++ rest) = none) →
      ∀ b', b'.contents = Function.update b.contents (key ++ t.suffix) none →
        post (some (.ok ())) b')
    (hfull : b.contents key = none → (∃ rest, b.contents (key ++ "/" ++ rest) ≠ none) →
      post (some (.error (.known ⟨.notEmpty, some key, .notEmpty key⟩))) b)
    (hmissing : b.contents.IsVacant t.suffix key →
      post (some (.error (.known (.notFound key (.noSuchEntry key))))) b) :
    (t.delete path false none).Ensures (Bucket.environment noFaults) (fun _ _ => True) post b := by
  refine Program.Ensures.mono (ensures_delete loud_noFaults t path false none b) ?_
  intro _ b' hend
  cases hend with
  | refused hpath => exact absurd (hpath key hresolve) hroot
  | stopped hmay => exact absurd hmay not_deleteMayFail_noFaults
  | givenUp hrecursive => cases hrecursive
  | settled hresolve' hdeletes hkept =>
      cases hresolve.symm.trans hresolve'
      generalize hafter : b'.contents = after at hdeletes
      cases hdeletes with
      | file hpresent => exact hfile hpresent b' hafter
      | absent hnone hmarker hbelow =>
          rw [hkept nofun]
          exact hmissing (Contents.isVacant_of_absent hroot hnone hmarker hbelow)
      | @notEmpty rest hnone hbelow _ =>
          rw [hkept nofun]
          exact hfull hnone ⟨rest, hbelow⟩
      | directory hnone hdirectory hallowed hgone =>
          have hbelow := hallowed.resolve_left Bool.false_ne_true
          have hthere := hdirectory.resolve_right fun ⟨rest, hrest⟩ => hrest (hbelow rest)
          exact hempty hnone hthere hbelow b'
            (hafter.trans (contents_of_directoryGone hgone hbelow))

end Tree

/-! ## The calls of the mount -/

/-- The calls that make or remove an entry. -/
inductive EntryChange where
  | makeDirectory (mode : Int)
  | removeDirectory
  | unlink

namespace EntryChange

/-- The call on a path. -/
def action (t : Tree) (path : Value) : EntryChange → MountAction Unit
  | .makeDirectory mode => Mount.makeDirectory t path (.int mode)
  | .removeDirectory => Mount.removeDirectory t path
  | .unlink => Mount.unlink t path

/-- The condition under which the call is carried out. A directory is made where nothing exists, in
an existing directory. A directory is removed when nothing is below it and no object is at its key.
A file is removed when an object is at its key. The root is excluded throughout. -/
def IsAllowed (suffix : String) (key : Key) (contents : Contents) : EntryChange → Prop
  | .makeDirectory _ => key ≠ Key.root ∧ contents.IsVacant suffix key ∧
      ∀ parent, Key.parent? key = some parent → Directory.IsAt suffix parent contents
  | .removeDirectory => key ≠ Key.root ∧ Directory.IsAt suffix key contents ∧
      contents key = none ∧ ∀ rest, contents (key ++ "/" ++ rest) = none
  | .unlink => key ≠ Key.root ∧ contents key ≠ none

/-- The contents after the call: an empty marker is stored, the marker is removed, or the object is
removed. -/
def effect (suffix : String) (key : Key) (contents : Contents) : EntryChange → Contents
  | .makeDirectory _ => Function.update contents (key ++ suffix) (some [])
  | .removeDirectory => Function.update contents (key ++ suffix) none
  | .unlink => Function.update contents key none

/-- The error number of a refused call, and what is at the key in that case. -/
inductive Refuses (suffix : String) (key : Key) (contents : Contents) : EntryChange → Errno → Prop
  /-- An object or a directory is at the key where a directory is to be made. -/
  | occupied {mode : Int} (h : ¬ contents.IsVacant suffix key) :
      Refuses suffix key contents (.makeDirectory mode) .exists
  /-- The parent of the directory to be made does not exist. -/
  | orphan {mode : Int} {parent : Key} (hvacant : contents.IsVacant suffix key)
      (hparent : Key.parent? key = some parent) (hnone : ¬ Directory.IsAt suffix parent contents) :
      Refuses suffix key contents (.makeDirectory mode) .noEntry
  /-- The root is to be removed as a directory. -/
  | root (h : key = Key.root) : Refuses suffix key contents .removeDirectory .invalid
  /-- An object is at the key of the directory to be removed. -/
  | file (hkey : key ≠ Key.root) (hfile : contents key ≠ none) :
      Refuses suffix key contents .removeDirectory .notDirectory
  /-- The directory to be removed is not empty. -/
  | full {rest : String} (hkey : key ≠ Key.root) (hfile : contents key = none)
      (hbelow : contents (key ++ "/" ++ rest) ≠ none) :
      Refuses suffix key contents .removeDirectory .notEmpty
  /-- The directory to be removed does not exist. -/
  | noDirectory (h : contents.IsVacant suffix key) :
      Refuses suffix key contents .removeDirectory .noEntry
  /-- The path to be unlinked is the root, or a directory without an object at its key. -/
  | directory (h : key = Key.root ∨ contents key = none ∧ Directory.IsAt suffix key contents) :
      Refuses suffix key contents .unlink .isDirectory
  /-- The file to be unlinked does not exist. -/
  | noFile (h : contents.IsVacant suffix key) : Refuses suffix key contents .unlink .noEntry

/-- A call that is refused is not allowed. -/
theorem Refuses.not_isAllowed {suffix : String} {key : Key} {contents : Contents}
    {change : EntryChange} {e : Errno} (h : Refuses suffix key contents change e) :
    ¬ change.IsAllowed suffix key contents := by
  cases h with
  | occupied h => exact fun hallowed => h hallowed.2.1
  | orphan _ hparent hnone => exact fun hallowed => hnone (hallowed.2.2 _ hparent)
  | root h => exact fun hallowed => hallowed.1 h
  | file _ hfile => exact fun hallowed => hfile hallowed.2.2.1
  | full _ _ hbelow => exact fun hallowed => hbelow (hallowed.2.2.2 _)
  | noDirectory h => exact fun hallowed => h.2 hallowed.2.1
  | directory h =>
      rintro ⟨hkey, hfile⟩
      rcases h with hroot | ⟨hnone, -⟩
      · exact hkey hroot
      · exact hfile hnone
  | noFile h => exact fun hallowed => hallowed.2 h.1

/-- The ends of the call: it is allowed and has its effect, or it is refused and the bucket is
unchanged. -/
inductive Ends (change : EntryChange) (suffix : String) (key : Key) (b : Bucket) (m : Mount) :
    Option (Except Refusal Unit × Mount) → Bucket → Prop
  | done {b' : Bucket} (hallowed : change.IsAllowed suffix key b.contents)
      (heffect : b'.contents = change.effect suffix key b.contents) :
      Ends change suffix key b m (some (.ok (), m)) b'
  | refused {e : Errno} (hrefuses : Refuses suffix key b.contents change e) :
      Ends change suffix key b m (some (.error (.errno e), m)) b

variable {t : Tree} {path : Value} {key : Key} {b : Bucket} {m : Mount}

/-- When the parent exists, making a directory stores its marker and nothing else. -/
theorem contents_of_made {suffix : String} {parent : Key} {before after : Contents}
    (h : Directory.Made suffix key before after)
    (hway : ∀ dir, Key.IsOnWay dir key ↔ dir = key ∨ Key.IsOnWay dir parent)
    (hmissing : ¬ Directory.IsAt suffix key before)
    (hparent : Directory.IsAt suffix parent before) :
    after = Function.update before (key ++ suffix) (some []) := by
  have hself : Key.IsOnWay key key := (hway key).2 (Or.inl rfl)
  funext other
  by_cases hother : other = key ++ suffix
  · rw [hother, Function.update_self]
    exact (h.stored key hself hmissing).2
  · -- the parent is there, so nothing is made on the way to it
    rw [Function.update_of_ne hother]
    refine h.kept other fun dir hdir hnone => ?_
    rcases (hway dir).1 hdir with rfl | habove
    · exact hother
    · exact absurd (hparent.above habove) hnone

/-- The operation `makeDirectory` ends as `Ends` says. -/
theorem ensures_makeDirectory (hresolve : t.resolve path = .ok key)
    (hroot : t.settings.rootUri = .text "") (mode : Int) :
    ((makeDirectory mode).action t path).Ensures (Bucket.environment noFaults)
      ((makeDirectory mode).Ends t.suffix key b m) m b := by
  show MountAction.Ensures _ _ (Mount.reported (t.mkdirs path false) >>= fun isNew =>
    if isNew then pure () else Mount.refuse .exists) m b
  apply MountAction.ensures_reported_bind
  by_cases hkey : key = Key.root
  · subst hkey
    exact Tree.ensures_mkdirs_root hresolve false
      (.refused (.occupied fun hvacant => hvacant.2 (Or.inl rfl)))
  obtain ⟨parent, hparent, hway, -⟩ :=
    ((Tree.isPath_of_resolve hresolve).isPlain hkey).exists_parent
  refine Program.Ensures.mono (Tree.ensures_makeDirectory hroot rfl t.nestingLimit path false b
    hresolve hkey) ?_
  rintro _ b' ⟨outcome, rfl, hmakes⟩
  cases hmakes with
  | occupied hfile => exact .refused (.occupied fun hvacant => hfile hvacant.1)
  | present _ hdirectory => exact .refused (.occupied fun hvacant => hvacant.2 hdirectory)
  | orphan hfile hmissing _ hparent hnone =>
      exact .refused (.orphan ⟨hfile, hmissing⟩ hparent hnone)
  | tooDeep _ _ hparents => cases hparents
  | blocked _ _ hparents => cases hparents
  | made hfile hmissing hparents _ _ hmade =>
      have habove := hparents.resolve_left Bool.false_ne_true
      exact .done ⟨hkey, ⟨hfile, hmissing⟩, habove⟩
        (contents_of_made hmade hway hmissing (habove parent hparent))

/-- The operation `removeDirectory` ends as `Ends` says. -/
theorem ensures_removeDirectory (hresolve : t.resolve path = .ok key) :
    (removeDirectory.action t path).Ensures (Bucket.environment noFaults)
      (removeDirectory.Ends t.suffix key b m) m b := by
  apply MountAction.ensures_reported_bind
  by_cases hkey : key = Key.root
  · subst hkey
    refine Tree.ensures_status_root hresolve fun status hdirectory => ?_
    dsimp only
    rw [if_pos hdirectory]
    exact MountAction.ensures_reported (Tree.ensures_delete_root hresolve false none
      (.refused (.root rfl)))
  refine Tree.ensures_status loud_noFaults hresolve hkey (fun _ _ => trivial) ?_ ?_ ?_ ?_
  · intro object hobject
    have hfile : b.contents key ≠ none := by simp [Bucket.contents_of_find? hobject]
    exact MountAction.ensures_refuse_bind (.refused (.file hkey hfile))
  · intro millis hfile hdirectory _
    refine MountAction.ensures_reported (Tree.ensures_deleteEntry hresolve hkey ?_ ?_ ?_ ?_)
    · exact fun hpresent => absurd hfile hpresent
    · exact fun _ _ hbelow _ herased => .done ⟨hkey, hdirectory, hfile, hbelow⟩ herased
    · exact fun _ ⟨rest, hrest⟩ => .refused (.full hkey hfile hrest)
    · exact fun hvacant => absurd hdirectory hvacant.2
  · exact fun hvacant => .refused (.noDirectory hvacant)
  · exact fun _ _ hmay => absurd hmay (Tree.not_queryMayFail_noFaults _)

/-- The operation `unlink` ends as `Ends` says. -/
theorem ensures_unlink (hresolve : t.resolve path = .ok key) :
    (unlink.action t path).Ensures (Bucket.environment noFaults)
      (unlink.Ends t.suffix key b m) m b := by
  apply MountAction.ensures_reported_bind
  by_cases hkey : key = Key.root
  · subst hkey
    refine Tree.ensures_status_root hresolve fun status hdirectory => ?_
    dsimp only
    rw [if_pos hdirectory]
    exact MountAction.ensures_refuse_bind (.refused (.directory (Or.inl rfl)))
  refine Tree.ensures_status loud_noFaults hresolve hkey (fun _ _ => trivial) ?_ ?_ ?_ ?_
  · intro object hobject
    have hpresent : b.contents key ≠ none := by simp [Bucket.contents_of_find? hobject]
    refine MountAction.ensures_reported (Tree.ensures_deleteEntry hresolve hkey ?_ ?_ ?_ ?_)
    · exact fun _ _ herased => .done ⟨hkey, hpresent⟩ herased
    · exact fun hnone => absurd hnone hpresent
    · exact fun hnone => absurd hnone hpresent
    · exact fun hvacant => absurd hvacant.1 hpresent
  · exact fun _ hnone hdirectory _ =>
      MountAction.ensures_refuse_bind (.refused (.directory (Or.inr ⟨hnone, hdirectory⟩)))
  · exact fun hvacant => .refused (.noFile hvacant)
  · exact fun _ _ hmay => absurd hmay (Tree.not_queryMayFail_noFaults _)

/-- On a store without faults, each call returns exactly when it is allowed, and then it has had its
effect on one object. Otherwise it fails with the error number of `Refuses`, and the bucket is
unchanged; `unlink` of the root, for instance, fails with `EISDIR`. The table of open files is not
used and stays as it is. -/
theorem settled {σ : Type} (backend : Backend σ) (view : σ → Bucket) (t : Tree) (path : Value)
    (change : EntryChange) {key : Key} (m : Mount) (s : σ) (hresolve : t.resolve path = .ok key)
    (hroot : t.settings.rootUri = .text "")
    (hrun : ((change.action t path).run.run m).Undisturbed backend view noFaults s) :
    ∃ outcome s', (change.action t path).perform backend m s = (some (outcome, m), s') ∧
      (outcome = .ok () ↔ change.IsAllowed t.suffix key (view s).contents) ∧
      (outcome = .ok () →
        (view s').contents = change.effect t.suffix key (view s).contents) ∧
      (outcome ≠ .ok () →
        (∃ e, outcome = .error (.errno e) ∧ Refuses t.suffix key (view s).contents change e) ∧
          view s' = view s) := by
  have hends : (change.action t path).Ensures (Bucket.environment noFaults)
      (change.Ends t.suffix key (view s) m) m (view s) := by
    cases change with
    | makeDirectory mode => exact ensures_makeDirectory hresolve hroot mode
    | removeDirectory => exact ensures_removeDirectory hresolve
    | unlink => exact ensures_unlink hresolve
  have hend := (hends.run_undisturbed hrun).2
  change change.Ends _ _ _ _ ((change.action t path).perform backend m s).1
    (view ((change.action t path).perform backend m s).2) at hend
  rcases hperform : (change.action t path).perform backend m s with ⟨r, s'⟩
  rw [hperform] at hend
  dsimp only at hend
  generalize hafter : view s' = after at hend
  cases hend with
  | done hallowed heffect =>
      exact ⟨_, s', rfl, iff_of_true rfl hallowed, fun _ => hafter ▸ heffect,
        fun hnot => absurd rfl hnot⟩
  | refused hrefuses =>
      exact ⟨_, s', rfl, iff_of_false nofun hrefuses.not_isAllowed, nofun,
        fun _ => ⟨⟨_, rfl, hrefuses⟩, hafter⟩⟩

open BucketTree.Tree (keyByKey twofold)

/-- On a path that is a file and a directory at once, `unlink` removes the file and `rmdir` is
refused. -/
theorem settled_twofold :
    keyByKey.resolve "/s" = .ok "s" ∧ keyByKey.settings.rootUri = .text "" ∧
    (∃ memory, (unlink.action keyByKey "/s").perform (Memory.backend "b") .fresh twofold =
        (some (.ok (), .fresh), memory) ∧
      (memory.bucket "b").contents = Function.update (twofold.bucket "b").contents "s" none) ∧
    ∃ memory, (removeDirectory.action keyByKey "/s").perform (Memory.backend "b") .fresh twofold =
        (some (.error (.errno .notDirectory), .fresh), memory) ∧
      memory.bucket "b" = twofold.bucket "b" := by
  have hresolve : keyByKey.resolve "/s" = .ok "s" := rfl
  have hroot : keyByKey.settings.rootUri = .text "" := rfl
  have hfile : (twofold.bucket "b").contents "s" ≠ none := by decide +kernel
  have hserved : ∀ change : EntryChange,
      (((change.action keyByKey "/s").run.run .fresh).sent (Memory.backend "b") twofold).all
          (fun e => Program.isServed (fun _ _ => false) e.1
            ((Memory.backend "b").answer e.1 e.2).1) = true →
        ((change.action keyByKey "/s").run.run .fresh).Undisturbed (Memory.backend "b")
          (Memory.bucket "b") noFaults twofold := fun change hall =>
    Program.undisturbed_of_served (Memory.backend_follows "b") Memory.loud_refuses
      (fun _ _ => false) (fun _ _ h => absurd h Bool.false_ne_true) hall
  obtain ⟨outcome, memory, hunlink, hallowed, heffect, -⟩ :=
    settled (Memory.backend "b") (Memory.bucket "b") keyByKey "/s" unlink .fresh twofold hresolve
      hroot (hserved unlink (by decide +kernel))
  obtain ⟨outcome', memory', hremove, hallowed', -, hrefused⟩ :=
    settled (Memory.backend "b") (Memory.bucket "b") keyByKey "/s" removeDirectory .fresh twofold
      hresolve hroot (hserved removeDirectory (by decide +kernel))
  obtain rfl : outcome = .ok () := hallowed.2 ⟨by decide, hfile⟩
  obtain ⟨⟨e, rfl, hrefuses⟩, hsame⟩ := hrefused fun hok => hfile (hallowed'.1 hok).2.2.1
  obtain rfl : e = .notDirectory := by
    cases hrefuses with
    | root hkey => exact absurd hkey (by decide)
    | file => rfl
    | full _ hnone => exact absurd hnone hfile
    | noDirectory hvacant => exact absurd hvacant.1 hfile
  exact ⟨hresolve, hroot, ⟨memory, hunlink, heffect rfl⟩, memory', hremove, hsame⟩

/-- A bucket with an object at the empty key. -/
def nameless : Memory := .ofObjects "b" [("", [7])]

/-- The empty key is the key of the root, which is a directory whatever object is stored there. So
`unlink` does not remove that object. -/
theorem unlink_root_refused :
    keyByKey.resolve "/" = .ok "" ∧ keyByKey.settings.rootUri = .text "" ∧
    (nameless.bucket "b").contents "" = some [7] ∧
    ((unlink.action keyByKey "/").run.run .fresh).Undisturbed (Memory.backend "b")
      (Memory.bucket "b") noFaults nameless ∧
    (unlink.action keyByKey "/").perform (Memory.backend "b") .fresh nameless =
      (some (.error (.errno .isDirectory), .fresh), nameless) :=
  ⟨rfl, rfl, rfl, fun _ hmem => absurd hmem List.not_mem_nil, rfl⟩

end EntryChange

end BucketTree
