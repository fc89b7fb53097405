import BucketTree.Proofs.Mount.Truncation
import BucketTree.Proofs.Tree.Translation

/-!
# Searching open files by path

Without a handle, the attributes and the truncation of a path are those of the file that is open for
writing at its key, or of the stored object if there is none. The mount computes the key from the
whole path, while the tree, which determined the key when the file was opened, strips the root
address first. So the mount finds the right file exactly when there is nothing to strip
(`Mount.lookup_agrees_iff`).
-/

set_option autoImplicit false

namespace BucketTree

variable {σ : Type} {backend : Backend σ} {t : Tree} {path : Value} {key other : Key} {s : σ}

namespace Mount

variable {m : Mount} {given : Option Int} {handle : Int} {w : Writer}

/-! ## Files open for writing -/

/-- Exactly one file is open for writing at the key, under this handle. -/
structure OpenOnce (m : Mount) (key : Key) (handle : Int) (w : Writer) : Prop where
  mem : (handle, w) ∈ m.writers
  key_eq : w.key = key
  isOpen : w.isClosed = false
  only : ∀ e ∈ m.writers, e.2.key = key → e = (handle, w)

/-- No file is open for writing at the key. -/
def NotOpen (m : Mount) (key : Key) : Prop := ∀ e ∈ m.writers, e.2.key ≠ key

theorem OpenOnce.writerFor?_eq (h : m.OpenOnce key handle w) :
    m.writerFor? key = some (handle, w) := by
  cases hfound : m.writerFor? key with
  | none => exact absurd (beq_iff_eq.2 h.key_eq) (List.find?_eq_none.1 hfound _ h.mem)
  | some e =>
      have hkey : e.2.key = key := eq_of_beq (List.find?_eq_some_iff_append.1 hfound).1
      exact congrArg some (h.only e (List.mem_of_find?_eq_some hfound) hkey)

theorem NotOpen.writerFor?_eq (h : m.NotOpen key) : m.writerFor? key = none :=
  List.find?_eq_none.2 fun e he hkey => h e he (eq_of_beq hkey)

/-! ## Operations without a handle -/

theorem perform_getAttributes_of_leadsNowhere (h : m.LeadsNowhere path given) (t : Tree) (s : σ) :
    ∃ outcome s', (t.status path).perform backend s = (some outcome, s') ∧
      (getAttributes t path given).perform backend m s =
        (some ((outcome.map Attributes.ofStatus).mapError reportedAs, m), s') := by
  obtain ⟨outcome, s', hstatus⟩ := (t.halts_status path).exists_perform backend s
  refine ⟨outcome, s', hstatus, ?_⟩
  unfold getAttributes
  rw [MountAction.perform_bind, MountAction.perform_of_run (addressed_of_leadsNowhere h)]
  dsimp only
  rw [MountAction.perform_bind, perform_reported hstatus]
  cases outcome <;> rfl

/-! ## Paths that stand for keys -/

/-- The attributes and the truncation of the path are about the file at `key`. -/
structure AnswersFor (backend : Backend σ) (t : Tree) (path : Value) (key : Key) (m : Mount)
    (given : Option Int) (s : σ) : Prop where
  /-- If one file is open at the key, its size is that of its buffer. -/
  size : ∀ {handle : Int} {w : Writer} {count : Nat}, m.OpenOnce key handle w → w.size = .ok count →
    (getAttributes t path given).perform backend m s = (some (.ok (.ofFile count none), m), s)
  /-- If one file is open at the key, its buffer is truncated and no request is sent. -/
  truncated : ∀ {handle : Int} {w : Writer} (length : Nat), m.OpenOnce key handle w →
    (truncate t path length given).perform backend m s =
      (some (((w.truncate (some length)).1.map fun _ => ()).mapError refusal,
        m.setWriter handle (w.truncate (some length)).2), s)
  /-- If no file is open at the key, the attributes are the status of the stored object. -/
  status : m.NotOpen key →
    ∃ outcome s', (t.status path).perform backend s = (some outcome, s') ∧
      (getAttributes t path given).perform backend m s =
        (some ((outcome.map Attributes.ofStatus).mapError reportedAs, m), s')
  /-- If no file is open at the key, the stored object is resized and no buffer changes. -/
  resized : ∀ length : Nat, m.NotOpen key →
    ∃ outcome s', (t.resizeFile path length).perform backend s = (some outcome, s') ∧
      (truncate t path length given).perform backend m s =
        (some (outcome.mapError reportedAs, m), s')

/-- The predicate `AnswersFor` without a handle, for every backend and every table of open files.
Zero is no handle. -/
def StandsFor (t : Tree) (path : Value) (key : Key) : Prop :=
  ∀ {σ : Type} (backend : Backend σ) (m : Mount) (given : Option Int) (s : σ),
    (∀ h ∈ given, h = 0) → AnswersFor backend t path key m given s

/-- A path stands for the key that it names without a root address. -/
theorem standsFor_of_toKey (h : Path.toKey path "" = .ok key) : StandsFor t path key := by
  intro σ backend m given s hgiven
  have hlead : ∀ {handle : Int} {w : Writer}, m.OpenOnce key handle w →
      m.Leads path given handle w := fun honce => .byPath hgiven h honce.writerFor?_eq
  have hnowhere : m.NotOpen key → m.LeadsNowhere path given :=
    fun hnone => .byPath hgiven h hnone.writerFor?_eq
  constructor
  case size => exact fun honce hsize =>
    perform_getAttributes_of_leads (hlead honce) honce.isOpen hsize t
  case truncated => exact fun length honce => perform_truncate_of_leads (hlead honce) t length
  case status => exact fun hnone => perform_getAttributes_of_leadsNowhere (hnowhere hnone) t s
  case resized => exact fun length hnone =>
    perform_truncate_of_leadsNowhere (hnowhere hnone) t length s

/-- A path that is refused without a root address ends both operations with that refusal. -/
theorem refused_of_toKey {refusal : PathRefusal} (h : Path.toKey path "" = .error refusal)
    (hgiven : ∀ h ∈ given, h = 0) (t : Tree) (length : Int) (m : Mount) (s : σ) :
    (getAttributes t path given).perform backend m s =
        (some (.error (.fault (.known (.ofRefusal refusal))), m), s) ∧
      (truncate t path length given).perform backend m s =
        (some (.error (.fault (.known (.ofRefusal refusal))), m), s) := by
  have haddressed := addressed_of_refused hgiven h m
  unfold getAttributes truncate
  rw [MountAction.perform_bind, MountAction.perform_bind, MountAction.perform_of_run haddressed]
  exact ⟨rfl, rfl⟩

/-! ## The root address -/

/-- The backend on which every request fails. -/
def outOfOrder : Backend Unit := ⟨fun _ s => (.error (.misuse .infinite), s), fun _ _ => false⟩

/-- On that backend, only the root has a status. -/
theorem isDirectory_of_outOfOrder (h : t.resolve path = .ok key) {status : FileStatus}
    (hstatus : (t.status path).perform outOfOrder () = (some (.ok status), ())) :
    status.isDirectory = true := by
  have hasked : (t.status path).perform outOfOrder () =
      Action.perform outOfOrder (Action.ofExcept (t.resolve path) >>= _) () := rfl
  rw [hasked, h] at hstatus
  by_cases hroot : key = Key.root
  · subst hroot
    cases hstatus
    rfl
  · have hbelow : (key == Key.root) = false := beq_eq_false_iff_ne.2 hroot
    change Action.perform outOfOrder (if key == Key.root then _ else _) () = _ at hstatus
    rw [hbelow, if_neg Bool.false_ne_true, Action.run_bind] at hstatus
    cases hstatus

/-- A mount with an empty file open for writing at the key. -/
def withEmptyFile (key : Key) : Mount := fresh.addWriter (.start key [] Writer.defaultSpoolSize)

theorem openOnce_withEmptyFile (key : Key) :
    (withEmptyFile key).OpenOnce key 1 (.start key [] Writer.defaultSpoolSize) :=
  ⟨List.mem_singleton.2 rfl, rfl, rfl, fun _ he _ => List.mem_singleton.1 he⟩

theorem notOpen_withEmptyFile (h : key ≠ other) : (withEmptyFile key).NotOpen other := by
  intro e he
  rw [List.mem_singleton.1 he]
  exact h

/-- A path that the tree resolves stands for no key but the one that it names without a root
address. -/
theorem toKey_of_standsFor (h : t.resolve path = .ok key) (hstands : StandsFor t path key) :
    Path.toKey path "" = .ok key := by
  have hsize := (hstands outOfOrder (withEmptyFile key) none () (by simp)).size
    (openOnce_withEmptyFile key) rfl
  cases hkey : Path.toKey path "" with
  | error refusal =>
      rw [(refused_of_toKey hkey (by simp) t 0 _ ()).1] at hsize
      cases hsize
  | ok other =>
      refine congrArg Except.ok ?_
      by_contra hother
      -- the file that is open is not found, and the store has nothing to tell of it
      have hnowhere : (withEmptyFile key).LeadsNowhere path none :=
        .byPath (by simp) hkey (notOpen_withEmptyFile (Ne.symm hother)).writerFor?_eq
      obtain ⟨outcome, ⟨⟩, hstatus, htold⟩ := perform_getAttributes_of_leadsNowhere hnowhere t ()
      rw [htold] at hsize
      cases outcome with
      | error fault => cases hsize
      | ok status =>
          have hattributes : Attributes.ofStatus status = .ofFile 0 none :=
            Except.ok.inj (congrArg Prod.fst (Option.some.inj (congrArg Prod.fst hsize)))
          unfold Attributes.ofStatus at hattributes
          rw [if_pos (isDirectory_of_outOfOrder h hstatus)] at hattributes
          have hmode : (0o040755 : Nat) = 0o100644 := congrArg Attributes.mode hattributes
          exact absurd hmode (by decide)

/-- A path that the tree resolves to `key` stands for `key` exactly when it is not under the root
address. It stands for the key that it names without a root address, and if there is none, both
operations end with the refusal of the path. -/
theorem lookup_agrees_iff (h : t.resolve path = .ok key) :
    ∃ raw root, path = .text raw ∧ t.settings.rootUri = .text root ∧
      (StandsFor t path key ↔ ¬ Path.IsUnder (Text.trimEnd Key.separator root) raw) ∧
      (∀ other, Path.toKey path "" = .ok other → StandsFor t path other) ∧
      ∀ refusal, Path.toKey path "" = .error refusal → ∀ {σ : Type} (backend : Backend σ)
        (m : Mount) (s : σ) (given : Option Int) (length : Int), (∀ h ∈ given, h = 0) →
        (getAttributes t path given).perform backend m s =
            (some (.error (.fault (.known (.ofRefusal refusal))), m), s) ∧
          (truncate t path length given).perform backend m s =
            (some (.error (.fault (.known (.ofRefusal refusal))), m), s) := by
  obtain ⟨raw, root, l, rfl, hroot, hnul, hsegments, rfl⟩ := Tree.resolve_eq_ok h
  refine ⟨raw, root, rfl, hroot, ?_, fun other => standsFor_of_toKey, ?_⟩
  · rw [← Path.toKey_whole_iff hnul hsegments]
    exact ⟨toKey_of_standsFor h, standsFor_of_toKey⟩
  · intro refusal hrefused σ backend m s given length hgiven
    exact refused_of_toKey hrefused hgiven t length m s

theorem lookup_agrees_iff_rooted :
    Tree.rooted.resolve "/a/f" = .ok "f" ∧ StandsFor Tree.rooted "/a/f" "a/f" ∧
      ¬ StandsFor Tree.rooted "/a/f" "f" ∧
    Tree.rooted.resolve "/f" = .ok "f" ∧ StandsFor Tree.rooted "/f" "f" := by
  have hbelow : Tree.rooted.resolve "/a/f" = .ok "f" := rfl
  have hbeside : Tree.rooted.resolve "/f" = .ok "f" := rfl
  have hunder : Path.IsUnder (Text.trimEnd Key.separator "/a") "/a/f" :=
    Path.isUnder_iff.2 (by decide)
  obtain ⟨raw, root, hraw, hroot, hiff, hwhole, -⟩ := lookup_agrees_iff hbelow
  cases hraw
  cases hroot
  obtain ⟨raw, root, hraw, hroot, hiff', -⟩ := lookup_agrees_iff hbeside
  cases hraw
  cases hroot
  refine ⟨hbelow, hwhole "a/f" rfl, fun hstands => hiff.1 hstands hunder, hbeside, hiff'.2 ?_⟩
  exact fun hunder => absurd (Path.isUnder_iff.1 hunder) (by decide)

/-- Opens two files for writing. Under the root address `/a` the tree resolves the first path to `f`
and the second to `a/f`, which the first path names without the root address. -/
def openBoth (t : Tree) : MountAction Unit := do
  let first ← create t "/a/f" (.int 0o644)
  discard <| write [1, 2] 0 (some first)
  let second ← create t "/a/a/f" (.int 0o644)
  discard <| write [1, 2, 3] 0 (some second)

/-- Without a handle, the first path has the size of the second file, and truncating it truncates
the second file. -/
theorem lookup_finds_other :
    Tree.rooted.resolve "/a/f" = .ok "f" ∧ Tree.rooted.resolve "/a/a/f" = .ok "a/f" ∧
    ∃ m m' memory,
      (openBoth Tree.rooted).perform (Memory.backend "b") fresh (.ofObjects "b" []) =
        (some (.ok (), m), memory) ∧
      m.openHandles = .ok [(1, "f", 2), (2, "a/f", 3)] ∧
      (getAttributes Tree.rooted "/a/f" none).perform (Memory.backend "b") m memory =
        (some (.ok (.ofFile 3 none), m), memory) ∧
      (truncate Tree.rooted "/a/f" 1 none).perform (Memory.backend "b") m memory =
        (some (.ok (), m'), memory) ∧
      m'.openHandles = .ok [(1, "f", 2), (2, "a/f", 1)] :=
  ⟨rfl, rfl, _, _, _, rfl, rfl, rfl, rfl, rfl⟩

end Mount

end BucketTree
