import BucketTree.Proofs.Contract.Session
import BucketTree.Proofs.Marker.Contract
import BucketTree.Proofs.Tree.Existence

/-!
# Markers stay

A directory with a marker stays a directory, whatever is deleted or renamed below it and beside it,
as long as neither the directory itself nor a directory above it is (`runSteps_marked`). Any request
may fail, and any step may be cancelled.
-/

set_option autoImplicit false

namespace BucketTree

/-- The path does not resolve to the directory or to one above it. -/
def Tree.spares (t : Tree) (dir : Key) (path : Value) : Bool :=
  match t.resolve path with
  | .ok key => key != dir && !Key.isAncestor key dir
  | .error _ => true

/-! ## Steps that spare a directory -/

section Spares

variable (t : Tree) (dir marker : Key)

/-- The step sends no request of its own, and a rule that it adds keeps the marker. -/
def StoreStep.spares : StoreStep → Bool
  | .request _ => false
  | .hook rule => rule.spares marker
  | _ => true

/-- The step does not delete or rename the directory or one above it. -/
def TreeStep.spares : TreeStep → Bool
  | .delete path _ _ => t.spares dir path
  | .rename source _ _ _ => t.spares dir source
  | _ => true

/-- The step does not delete or rename the directory or one above it. -/
def MountStep.spares : MountStep → Bool
  | .removeDirectory path => t.spares dir path
  | .unlink path => t.spares dir path
  | .rename source _ => t.spares dir source
  | _ => true

/-- The step accesses the bucket only through the tree, the mount and the open items, and does not
delete or rename the directory or one above it. -/
def Step.spares : Step → Bool
  | .store _ step => step.spares marker
  | .tree step => step.spares t dir
  | .directory _ => false
  | .move _ => false
  | .mount step => step.spares t dir
  | _ => true

end Spares

namespace Tree

variable {t : Tree} {dir : Key} {path : Value}

theorem spares_iff : t.spares dir path = true ↔
    ∀ key, t.resolve path = .ok key → key ≠ dir ∧ Key.isAncestor key dir = false := by
  unfold spares
  cases hresolve : t.resolve path with
  | ok key => simp
  | error refusal => simp

/-- A deletion at a path that spares the directory is permitted by the contract that spares its
marker. -/
theorem permitsDelete_of_spares (h : t.spares dir path = true) :
    (Contract.sparing (dir ++ t.suffix)).PermitsDelete t path := by
  intro key hkey hroot
  obtain ⟨hne, habove⟩ := spares_iff.1 h key hkey
  exact Contract.sparing_permitsRemoval t.settings.separator_not_mem
    ((isPath_of_resolve hkey).isPlain hroot) hne habove

/-- A rename from such a path is permitted as well, to any destination. -/
theorem permitsRenaming_of_spares (h : t.spares dir path = true) (destination : Value) :
    (Contract.sparing (dir ++ t.suffix)).PermitsRenaming t path destination :=
  fun key _ hkey _ hroot _ =>
    Contract.sparing_permitsRename (permitsDelete_of_spares h key hkey hroot)

end Tree

/-- A step that spares the directory is permitted by the contract that spares its marker. -/
theorem Step.isPermitted_of_spares {t : Tree} {dir : Key} {step : Step}
    (h : step.spares t dir (dir ++ t.suffix) = true) :
    step.IsPermitted (.sparing (dir ++ t.suffix)) (Contents.Holds (dir ++ t.suffix)) t := by
  cases step with
  | store target step =>
      cases step with
      | request q => cases h
      | hook rule => exact Rule.respects_of_spares h
      | _ => trivial
  | tree step =>
      cases step with
      | delete path isRecursive cancel => exact Tree.permitsDelete_of_spares h
      | rename source destination cancel overwrite =>
          exact Tree.permitsRenaming_of_spares h destination
      | _ => trivial
  | writer name step =>
      cases step with
      | make key data maxSize => exact Contract.sparing_permitsUploads _ key
      | _ => trivial
  | mount step =>
      cases step with
      | removeDirectory path => exact Tree.permitsDelete_of_spares h
      | unlink path => exact Tree.permitsDelete_of_spares h
      | rename source destination => exact Tree.permitsRenaming_of_spares h destination
      | _ => trivial
  | directory step => cases h
  | move step => cases h
  | _ => trivial

namespace Session

/-- A session with the marker in its bucket, and with rules that keep it, satisfies the
invariant. -/
theorem upholds_marked (s : Session) {marker : Key}
    (hthere : (s.world.memory.bucket s.tree.bucket).contents.Holds marker)
    (hrules : ∀ r ∈ s.world.rules, r.spares marker = true) :
    s.Upholds (.sparing marker) (Contents.Holds marker) s.tree where
  tree := .refl s.tree
  world := ⟨fun r hr => Rule.respects_of_spares (hrules r hr), hthere⟩
  mount e _ := Contract.sparing_permitsUploads marker e.2.key
  items := by
    rintro ⟨name, item⟩ _
    cases item with
    | writer w => exact Contract.sparing_permitsUploads marker w.key
    | _ => trivial

/-- Steps that delete or rename neither the directory nor one above it keep its marker, after each
of them, and `isDirectory` is true for it in every tree with the same bucket and marker suffix. -/
theorem runSteps_marked (s : Session) {dir marker : Key}
    (hmarker : Key.marker s.tree.suffix dir = .ok marker)
    (hthere : (s.world.memory.bucket s.tree.bucket).contents marker ≠ none)
    (hrules : ∀ r ∈ s.world.rules, r.spares marker = true) (steps : List Step)
    (hsteps : ∀ step ∈ steps, step.spares s.tree dir marker = true) (n : Nat) :
    ((runSteps (steps.take n) s).2.bucket s.tree.bucket).contents marker ≠ none ∧
    ∀ (t : Tree) (path : Value), t.bucket = s.tree.bucket → t.suffix = s.tree.suffix →
      t.resolve path = .ok dir →
        ((t.isDirectory path).perform (Memory.backend t.bucket)
          (runSteps (steps.take n) s).2).1 = some (.ok true) := by
  have hroot : dir ≠ Key.root := by
    rintro rfl
    cases hmarker
  rw [Key.marker_eq hroot] at hmarker
  obtain rfl := Except.ok.inj hmarker
  have hleft : ((runSteps (steps.take n) s).2.bucket s.tree.bucket).contents
      (dir ++ s.tree.suffix) ≠ none := by
    refine (upholds_marked s hthere hrules).runSteps (Contract.sparing_protects _)
      (Contract.sparing_permitsFiles _ _) ?_
    intro step hstep
    exact Step.isPermitted_of_spares (hsteps step (List.mem_of_mem_take hstep))
  refine ⟨hleft, ?_⟩
  intro t path hbucket hsuffix hresolve
  -- the marker alone makes a directory
  obtain ⟨found, hfound, hat⟩ := Tree.isDirectory_eq (m := (runSteps (steps.take n) s).2) hresolve
  rw [hfound, hat.2]
  rw [hbucket, hsuffix]
  exact Or.inr (Or.inl hleft)

/-- A session on a directory with a marker, a file and a directory below it, and two neighbours. -/
def drawers : Session where
  tree := .keyByKey
  storeName := "m"
  mount := .fresh
  world := ⟨.ofObjects "b" [("d/a", [1]), ("d/s/b", [2]), ("d/s_$folder$", []), ("d2/c", [3]),
    ("d_$folder$", []), ("e", [4])], [], [], []⟩
  items := []

/-- The directory is emptied. The deletion of `/d/s` stops at a protected file, and what it leaves
is renamed. The deletion of one neighbour is cancelled, and another neighbour cannot be renamed to
the directory. -/
def emptying : List Step :=
  [.tree (.delete "/d/a" false none),
    .store none (.hook ⟨.delete, some "d/s/b", 0, some 1, [], none,
      some (.remote (some .permissionDenied) "protected"), none, none⟩),
    .tree (.delete "/d/s" true none),
    .mount (.rename "/d/s" "/s"),
    .cancel (.cancel "t"),
    .tree (.delete "/d2" true (some "t")),
    .tree (.rename "/e" "/d" none true)]

theorem runSteps_marked_drawers :
    ((runSteps emptying drawers).2.bucket "b").keys =
      ["d2/c", "d_$folder$", "e", "s/b", "s_$folder$"] ∧
    ∀ n, ((runSteps (emptying.take n) drawers).2.bucket "b").contents "d_$folder$" ≠ none ∧
      ∀ (t : Tree) (path : Value), t.bucket = "b" → t.suffix = "_$folder$" →
        t.resolve path = .ok "d" →
          ((t.isDirectory path).perform (Memory.backend t.bucket)
            (runSteps (emptying.take n) drawers).2).1 = some (.ok true) := by
  refine ⟨by decide +kernel, fun n => ?_⟩
  have hthere : (drawers.world.memory.bucket drawers.tree.bucket).contents "d_$folder$" ≠ none := by
    decide +kernel
  have hspared : ∀ step ∈ emptying, step.spares drawers.tree "d" "d_$folder$" = true := by
    decide +kernel
  exact runSteps_marked drawers rfl hthere (fun _ => nofun) emptying hspared n

end Session

end BucketTree
