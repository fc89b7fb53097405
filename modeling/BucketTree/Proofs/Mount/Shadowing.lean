import BucketTree.Proofs.Mount.Truncation

/-!
# Truncating absent files

A truncation reads the object only when some of it is to be kept. Without an object it is therefore
refused for every size but zero. For the size zero it stores an empty object, even at the key of a
directory, which is a file from then on (`Mount.truncate_absent`).
-/

set_option autoImplicit false

namespace BucketTree

variable {σ : Type} {backend : Backend σ} {view : σ → Bucket} {fails : Request → Fault → Prop}
variable {t : Tree} {path : Value} {key : Key} {size : Nat} {s : σ}

namespace Tree

/-- Opening for reading fails when there is no object. -/
theorem openForRead_of_absent (hf : backend.Follows view (Bucket.environment fails))
    (h : t.Names path key) (habsent : (view s).contents key = none) :
    ∃ failure s', (t.openForRead path (.int 0)).perform backend s =
        (some (.error (.known failure)), s') ∧ view s' = view s := by
  have hanswer := hf.answer (.openRange key (.int 0)) s
  rcases hopen : backend.answer (.openRange key (.int 0)) s with ⟨outcome, s'⟩
  rw [hopen] at hanswer
  have hread := openForRead_of_answer h (Int.le_refl 0) hopen
  dsimp only at hanswer
  generalize hb : view s' = b at hanswer
  cases hanswer with
  | failed hfault => exact ⟨_, s', hread, hb⟩
  | absent hneeds hkey => exact ⟨_, s', hread, hb⟩
  | openRange hkey =>
      rw [Bucket.contents_of_find? hkey] at habsent
      cases habsent

/-- The path names no file: it is refused, or it names the root. -/
inductive NamesNone (t : Tree) (path : Value) : Prop
  | refused {failure : Failure} (h : t.resolve path = .error (.known failure))
  | root (h : t.resolve path = .ok Key.root)

/-- An operation on such a path ends at its start. -/
theorem perform_key_of_namesNone (h : t.NamesNone path) (fault : PathFault) {α : Type}
    (rest : Key → Action α) (backend : Backend σ) (s : σ) :
    ∃ failure, (do let key ← t.key path; refuseRoot key fault path; rest key).perform backend s =
      (some (.error (.known failure)), s) := by
  unfold Tree.key
  cases h with
  | refused h =>
      rw [h]
      exact ⟨_, rfl⟩
  | root h =>
      rw [h]
      exact ⟨_, rfl⟩

theorem resizeFile_of_namesNone (h : t.NamesNone path) (size : Nat) (backend : Backend σ) (s : σ) :
    ∃ failure, (t.resizeFile path size).perform backend s =
      (some (.error (.known failure)), s) := by
  unfold resizeFile
  by_cases hpositive : 0 < size
  · obtain ⟨failure, hopen⟩ : ∃ failure, (t.openForRead path (.int 0)).perform backend s =
        (some (.error (.known failure)), s) := perform_key_of_namesNone h .rootRead _ backend s
    refine ⟨failure, ?_⟩
    rw [if_pos hpositive, Action.run_bind, readOnce_of_openForRead_error hopen]
  · obtain rfl : size = 0 := by omega
    obtain ⟨failure, hopen⟩ : ∃ failure, (t.openForWrite path []).perform backend s =
        (some (.error (.known failure)), s) := perform_key_of_namesNone h .rootWrite _ backend s
    refine ⟨failure, ?_⟩
    show (t.storeFile path []).perform backend s = _
    unfold storeFile
    rw [Action.run_bind, hopen]

/-- A positive size is refused without an object, before anything is stored. -/
theorem resizeFile_of_absent (hf : backend.Follows view (Bucket.environment fails))
    (h : t.Names path key) (habsent : (view s).contents key = none) (hsize : 0 < size) :
    ∃ failure s', (t.resizeFile path size).perform backend s =
        (some (.error (.known failure)), s') ∧ view s' = view s := by
  obtain ⟨failure, s', hopen, hview⟩ := openForRead_of_absent hf h habsent
  refine ⟨failure, s', ?_, hview⟩
  unfold resizeFile
  rw [if_pos hsize, Action.run_bind, readOnce_of_openForRead_error hopen]

/-- The size zero stores an empty object, if the store accepts it. -/
theorem resizeFile_zero (hf : backend.Follows view (Bucket.environment fails))
    (h : t.Names path key) (htakes : ∀ upload : Upload, upload.Carries [] →
      ∃ block, (backend.answer (.put key upload) s).1 = .ok block) :
    ∃ s', (t.resizeFile path 0).perform backend s = (some (.ok ()), s') ∧
      (view s').contents = Function.update (view s).contents key (some []) := by
  obtain ⟨outcome, s', hstore, huploads⟩ := storeFile_of_names hf.stores h
    (by decide : ((([] : Bytes).length : Nat) : Int) < Word.memoryLimit) s
  cases huploads with
  | stored hcarries hput hstored => exact ⟨s', hstore, hstored⟩
  | failed hcarries hput hkept =>
      obtain ⟨block, hblock⟩ := htakes _ hcarries
      rw [hput] at hblock
      cases hblock

end Tree

namespace Mount

variable {m : Mount} {given : Option Int}

/-- When a path leads to no open file and to no object, a truncation fails with an error number and
changes nothing, unless the size is zero and the path names a file. In that case it stores an empty
object at the key, if the store accepts it. -/
theorem truncate_absent (hf : backend.Follows view (Bucket.environment fails))
    (hnowhere : m.LeadsNowhere path given)
    (habsent : ∀ key, t.Names path key → (view s).contents key = none) :
    (t.NamesNone path ∨ 0 < size ∧ (∃ key, t.Names path key) → ∃ errno s',
      (truncate t path size given).perform backend m s = (some (.error (.errno errno), m), s') ∧
        view s' = view s) ∧
    (∀ key, t.Names path key → (∀ upload : Upload, upload.Carries [] →
        ∃ block, (backend.answer (.put key upload) s).1 = .ok block) → ∃ s',
      (truncate t path (0 : Nat) given).perform backend m s = (some (.ok (), m), s') ∧
        (view s').contents = Function.update (view s).contents key (some [])) := by
  constructor
  · rintro (hnone | ⟨hpositive, key, hnames⟩)
    · obtain ⟨failure, hresize⟩ := Tree.resizeFile_of_namesNone hnone size backend s
      exact ⟨_, s, truncate_of_resizeFile hnowhere hresize, rfl⟩
    · obtain ⟨failure, s', hresize, hview⟩ :=
        Tree.resizeFile_of_absent hf hnames (habsent key hnames) hpositive
      exact ⟨_, s', truncate_of_resizeFile hnowhere hresize, hview⟩
  · intro key hnames htakes
    obtain ⟨s', hresize, hstored⟩ := Tree.resizeFile_zero hf hnames htakes
    exact ⟨s', truncate_of_resizeFile hnowhere hresize, hstored⟩

/-- Truncating a directory to three bytes is refused, and nothing is stored. -/
theorem truncate_absent_shelf :
    fresh.LeadsNowhere "/s" none ∧ Tree.keyByKey.Names "/s" "s" ∧
    (Tree.shelf.bucket "b").contents "s" = none ∧
    (∃ errno memory, (truncate Tree.keyByKey "/s" (3 : Nat) none).perform (Memory.backend "b")
        fresh Tree.shelf = (some (.error (.errno errno), fresh), memory) ∧
      memory.bucket "b" = Tree.shelf.bucket "b") ∧
    (∃ memory, (truncate Tree.keyByKey "/s" (0 : Nat) none).perform (Memory.backend "b")
        fresh Tree.shelf = (some (.ok (), fresh), memory) ∧
      (memory.bucket "b").contents =
        Function.update (Tree.shelf.bucket "b").contents "s" (some [])) := by
  have hnowhere : fresh.LeadsNowhere "/s" none := .byPath (by simp) rfl rfl
  have hnames : Tree.keyByKey.Names "/s" "s" := ⟨rfl, by decide⟩
  have hnone : (Tree.shelf.bucket "b").contents "s" = none := rfl
  have habsent : ∀ key, Tree.keyByKey.Names "/s" key →
      (Tree.shelf.bucket "b").contents key = none := by
    rintro key ⟨hkey, -⟩
    rw [hnames.1] at hkey
    cases hkey
    exact hnone
  have htakes : ∀ upload : Upload, upload.Carries [] →
      ∃ block, ((Memory.backend "b").answer (.put "s" upload) Tree.shelf).1 = .ok block := by
    intro upload hcarries
    obtain ⟨block, memory, hput⟩ := Memory.put_of_carries (m := Tree.shelf) hcarries (by decide)
      (by decide) "b" "s"
    exact ⟨block, congrArg Prod.fst hput⟩
  have hsize : Tree.keyByKey.NamesNone "/s" ∨ 0 < 3 ∧ (∃ key, Tree.keyByKey.Names "/s" key) :=
    Or.inr ⟨by decide, "s", hnames⟩
  obtain ⟨hrefused, hcreated⟩ := truncate_absent (Memory.backend_follows "b") hnowhere habsent
  exact ⟨hnowhere, hnames, hnone, hrefused hsize, hcreated "s" hnames htakes⟩

/-- Truncating to zero stores an empty object at the key of a directory, and at that of a path where
nothing exists. Truncating to one is refused for both. -/
theorem truncate_shadows :
    (∃ memory, (truncate Tree.keyByKey "/s" 0 none).perform (Memory.backend "b") fresh Tree.shelf =
        (some (.ok (), fresh), memory) ∧
      (Tree.shelf.bucket "b").contents "s" = none ∧
      (memory.bucket "b").contents "s" = some []) ∧
    (∃ memory, (truncate Tree.keyByKey "/f" 0 none).perform (Memory.backend "b") fresh Tree.husk =
        (some (.ok (), fresh), memory) ∧
      (Tree.husk.bucket "b").contents "f" = none ∧
      (memory.bucket "b").contents "f" = some []) ∧
    (∃ memory, (truncate Tree.keyByKey "/s" 1 none).perform (Memory.backend "b") fresh Tree.shelf =
      (some (.error (.errno .noEntry), fresh), memory)) ∧
    (∃ memory, (truncate Tree.keyByKey "/f" 1 none).perform (Memory.backend "b") fresh Tree.husk =
      (some (.error (.errno .noEntry), fresh), memory)) :=
  ⟨⟨_, rfl, rfl, rfl⟩, ⟨_, rfl, rfl, rfl⟩, ⟨_, rfl⟩, ⟨_, rfl⟩⟩

end Mount

end BucketTree
