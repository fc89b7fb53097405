import BucketTree.Proofs.Contract.Session
import BucketTree.Proofs.Filing.Contract

/-!
# Sessions keep their buckets tidy

A session that starts with an empty bucket and accesses it only through the tree and the mount
leaves well-formed keys only, with empty objects at the keys of markers (`runSteps_filed`). Rules of
interference must be honest. Writers may be closed at any later time, and any request may fail.
-/

set_option autoImplicit false

namespace BucketTree

/-! ## Steps through the tree -/

/-- The step sends no request of its own, and a rule that it adds is honest. -/
def StoreStep.isThroughTree : StoreStep → Bool
  | .request _ => false
  | .hook rule => rule.isHonest
  | _ => true

/-- The step works on an open writer; it makes none for a given key. -/
def WriterStep.isThroughTree : WriterStep → Bool
  | .make _ _ _ => false
  | _ => true

/-- The step accesses the bucket only through the tree, the mount and the items that they have
opened. -/
def Step.isThroughTree : Step → Bool
  | .store _ step => step.isThroughTree
  | .writer _ step => step.isThroughTree
  | .directory _ => false
  | .move _ => false
  | _ => true

namespace Tree

variable (t : Tree)

theorem tidy_permitsDelete (path : Value) :
    (Contract.tidy t.suffix).PermitsDelete t path :=
  fun key _ _ => Contract.tidy_permitsRemoval t.suffix key

/-- The keys of paths are plain, so renames between them are permitted. -/
theorem tidy_permitsRenaming (source destination : Value) :
    (Contract.tidy t.suffix).PermitsRenaming t source destination := by
  intro sourceKey destinationKey hsource hdestination hsourceRoot hdestinationRoot
  exact Contract.tidy_permitsRename t.settings.separator_not_mem
    ((isPath_of_resolve hsource).isPlain hsourceRoot)
    ((isPath_of_resolve hdestination).isPlain hdestinationRoot)

end Tree

/-- A step through the tree is permitted by the contract of a tidy bucket. -/
theorem Step.isPermitted_of_isThroughTree {t : Tree} {step : Step}
    (h : step.isThroughTree = true) :
    step.IsPermitted (.tidy t.suffix) (Contents.IsTidy t.suffix) t := by
  cases step with
  | store target step =>
      cases step with
      | request q => cases h
      | hook rule => exact Rule.respects_of_isHonest h t.suffix
      | _ => trivial
  | tree step =>
      cases step with
      | delete path isRecursive cancel => exact t.tidy_permitsDelete path
      | rename source destination cancel overwrite =>
          exact t.tidy_permitsRenaming source destination
      | _ => trivial
  | writer name step =>
      cases step with
      | make key data maxSize => cases h
      | _ => trivial
  | mount step =>
      cases step with
      | removeDirectory path => exact t.tidy_permitsDelete path
      | unlink path => exact t.tidy_permitsDelete path
      | rename source destination => exact t.tidy_permitsRenaming source destination
      | _ => trivial
  | directory step => cases h
  | move step => cases h
  | _ => trivial

namespace Session

variable {s : Session}

/-- A session without a seed starts with a tidy bucket. -/
theorem upholds_start {setup : SessionSetup} (hseed : setup.seed = [])
    (hstart : start setup = .ok s) :
    s.Upholds (.tidy s.tree.suffix) (Contents.IsTidy s.tree.suffix) s.tree := by
  unfold start at hstart
  rw [hseed] at hstart
  cases hsettings : setup.settings.toSettings with
  | error misuse =>
      rw [hsettings] at hstart
      cases hstart
  | ok settings =>
      rw [hsettings] at hstart
      change Except.bind
        ((Tree.make setup.bucket settings 0 setup.nestingLimit).mapError _) _ = _ at hstart
      cases htree : Tree.make setup.bucket settings 0 setup.nestingLimit with
      | error misuse =>
          rw [htree] at hstart
          cases hstart
      | ok tree =>
          rw [htree] at hstart
          cases hstart
          have hempty : Contents.IsTidy tree.suffix Bucket.empty.contents := by
            intro key content hcontent
            cases hcontent
          have hnone : ∀ {β : Type} {holds : β → Prop}, ∀ x ∈ ([] : List β), holds x :=
            fun x hx => absurd hx List.not_mem_nil
          exact ⟨.refl tree, ⟨hnone, hempty⟩, hnone, hnone⟩

/-- After any run of steps through the tree and the mount from an empty bucket, every key is plain
or the marker of a plain key, and markers are empty. No path names a marker, and the directory of a
marker is the key that it was made for. -/
theorem runSteps_filed (setup : SessionSetup) (hseed : setup.seed = []) (s : Session)
    (hstart : start setup = .ok s) (steps : List Step)
    (hsteps : ∀ step ∈ steps, step.isThroughTree = true) :
    (∀ key content, ((runSteps steps s).2.bucket s.tree.bucket).contents key = some content →
      Key.Admits s.tree.suffix key content) ∧
    (∀ path key, s.tree.resolve path = .ok key → Key.isMarker s.tree.suffix key = false) ∧
    ∀ dir marker, Key.marker s.tree.suffix dir = .ok marker →
      Key.withoutSuffix s.tree.suffix marker = dir := by
  have hpermitted := fun step hstep => Step.isPermitted_of_isThroughTree (t := s.tree)
    (hsteps step hstep)
  refine ⟨(upholds_start hseed hstart).runSteps (Contract.tidy_protects _)
    (Contract.tidy_permitsFiles _) hpermitted, ?_, ?_⟩
  · intro path key hresolve
    exact (Tree.isPath_of_resolve hresolve).isMarker_eq_false s.tree.settings.folderSuffix_ne
      s.tree.settings.separator_not_mem
  · intro dir marker hmarker
    by_cases hroot : dir = Key.root
    · rw [hroot] at hmarker
      cases hmarker
    · rw [Key.marker_eq hroot] at hmarker
      cases hmarker
      exact Key.withoutSuffix_append _ dir

/-- The setup of a session on an empty bucket with the default settings. -/
def emptyOffice : SessionSetup where
  bucket := "b"
  settings := .ofFields none none none
  storeName := "m"
  clock := ⟨0, 1⟩
  seed := []

/-- A directory is renamed while a file in it is being written, and the deletion of its marker is
refused. The file is closed afterwards, and another file is opened through the mount. -/
def interruptedMove : List Step :=
  [.tree (.mkdirs "/d" true),
    .tree (.create "w" "/d/a" false),
    .writer "w" (.write [1]),
    .store none (.hook ⟨.delete, none, 0, none, [], none,
      some (.remote (some .permissionDenied) "protected"), none, none⟩),
    .tree (.rename "/d" "/e" none false),
    .writer "w" .close,
    .mount (.create "/f" (.int 0)),
    .mount .destroy]

/-- Afterwards both directories have a marker, and the files are at the keys at which they were
opened. -/
theorem runSteps_filed_interruptedMove : ∃ s, start emptyOffice = .ok s ∧
    ((runSteps interruptedMove s).2.bucket "b").keys =
      ["d/a", "d_$folder$", "e_$folder$", "f"] ∧
    ∀ key content, ((runSteps interruptedMove s).2.bucket "b").contents key = some content →
      Key.Admits "_$folder$" key content :=
  ⟨_, rfl, by decide +kernel,
    (runSteps_filed emptyOffice rfl _ rfl interruptedMove (by decide +kernel)).1⟩

end Session

end BucketTree
