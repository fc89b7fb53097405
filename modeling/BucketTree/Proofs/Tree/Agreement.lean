import BucketTree.Proofs.Move.Rename
import BucketTree.Proofs.Tree.Existence
import BucketTree.Proofs.Tree.Faults
import BucketTree.Proofs.Tree.Removal

/-!
# Existence of paths

Four queries ask whether something is at a path: `isFile`, `isDirectory`, `exists?` and `status`. A
deletion and a rename look up their path as well before they begin. Each sends requests of its own,
and on a store in memory all of them agree with the keys of the bucket (`existence_agrees`).
-/

set_option autoImplicit false

namespace BucketTree

/-- Neither an object nor a directory is at the key. -/
def Contents.IsVacant (suffix : String) (key : Key) (contents : Contents) : Prop :=
  contents key = none ∧ ¬ Directory.IsAt suffix key contents

/-- Without an object, a marker and keys below it, a key other than the root is vacant. -/
theorem Contents.isVacant_of_absent {suffix : String} {key : Key} {contents : Contents}
    (hroot : key ≠ Key.root) (hfile : contents key = none)
    (hmarker : contents (key ++ suffix) = none)
    (hbelow : ∀ rest, contents (key ++ "/" ++ rest) = none) : contents.IsVacant suffix key := by
  refine ⟨hfile, ?_⟩
  rintro (h | h | ⟨rest, h⟩)
  · exact hroot h
  · exact h hmarker
  · rw [Key.directoryPrefix_eq hroot] at h
    exact h (hbelow rest)

/-- An outcome that says that nothing exists implies `isVacant`. -/
def DeniesOnly {α : Type} (isVacant : Prop) (r : Option (Except Fault α)) (_ : Bucket) : Prop :=
  ∀ fault, r = some (.error fault) → fault.isAbsence = true → isVacant

section Denials

variable {α : Type} {isVacant : Prop} {b : Bucket}

theorem deniesOnly_ok (x : α) : DeniesOnly isVacant (some (.ok x)) b := by
  rintro _ ⟨⟩

theorem deniesOnly_of_loud {fault : Fault} (h : fault.isAbsence = false) :
    DeniesOnly isVacant (some (.error fault : Except Fault α)) b := by
  rintro _ ⟨⟩ habsent
  rw [h] at habsent
  cases habsent

theorem deniesOnly_of_vacant (h : isVacant) (r : Option (Except Fault α)) :
    DeniesOnly isVacant r b :=
  fun _ _ _ => h

theorem deniesOnly_of_kind {failure : Failure} {kind : FailureKind} (hkind : failure.kind = kind)
    (hloud : kind ≠ .notFound) :
    DeniesOnly isVacant (some (.error (.known failure) : Except Fault α)) b :=
  deniesOnly_of_loud (Failure.isNotFound_eq_false (hkind ▸ hloud))

/-- An action that raises loud faults only never says that nothing exists. -/
theorem Action.Raises.denies {a : Action α} (h : a.Raises .sound Fault.IsLoud)
    {fails : Request → Fault → Prop} :
    a.Ensures (Bucket.environment fails) (fun _ _ => True) (DeniesOnly isVacant) b := by
  refine Program.Ensures.mono (Action.Raises.ensures h ?_ b) ?_
  · exact fun _ _ _ _ hanswer => Bucket.Answers.sound hanswer
  · intro r b' hr fault hfault habsent
    rw [(hr fault hfault).isAbsence_eq_false] at habsent
    cases habsent

end Denials

namespace Tree

variable {fails : Request → Fault → Prop} {sends : Request → Bucket → Prop} {b : Bucket}
  {t : Tree} {path : Value} {key : Key}

/-! ## The queries -/

/-- The operation `exists?` is true when an object or a directory is at the key. -/
theorem ensures_exists? (hloud : Loud fails) {post : Option (Except Fault Bool) → Bucket → Prop}
    (hresolve : t.resolve path = .ok key) (hroot : key ≠ Key.root)
    (hask : ∀ q : Request, q.isQuery → sends q b)
    (hyes : b.contents key ≠ none ∨ Directory.IsAt t.suffix key b.contents →
      post (some (.ok true)) b)
    (hno : b.contents.IsVacant t.suffix key → post (some (.ok false)) b)
    (hfail : ∀ failure, IsQueryFailure failure → QueryMayFail fails (.int 1) none →
      post (some (.error (.known failure))) b) :
    (t.exists? path).Ensures (Bucket.environment fails) sends post b := by
  refine Action.ensures_bind (ensures_isFile hloud hresolve hroot hask ?_ ?_ hfail)
  · intro hfile
    exact Action.ensures_pure (hyes (Or.inl hfile))
  · intro hnone
    refine ensures_isDirectory hloud hresolve hask ?_ ?_ hfail
    · exact fun hdirectory => hyes (Or.inr hdirectory)
    · exact fun hdirectory => hno ⟨hnone, hdirectory⟩

/-- The status is that of the object at the key; without an object it is that of the directory, with
the time of its marker. -/
theorem ensures_status (hloud : Loud fails)
    {post : Option (Except Fault FileStatus) → Bucket → Prop}
    (hresolve : t.resolve path = .ok key) (hroot : key ≠ Key.root)
    (hask : ∀ q : Request, q.isQuery → sends q b)
    (hfile : ∀ object, b.find? key = some object →
      post (some (.ok ⟨Key.toPath key, Key.basename key, false, object.status.size,
        some object.status.modifiedMillis⟩)) b)
    (hdirectory : ∀ millis : Option Int, b.contents key = none →
      Directory.IsAt t.suffix key b.contents →
      (millis = none ↔ b.contents (key ++ t.suffix) = none) →
      post (some (.ok ⟨Key.toPath key, Key.basename key, true, 0, millis⟩)) b)
    (hmissing : b.contents.IsVacant t.suffix key →
      post (some (.error (.known (.notFound key (.noSuchEntry key))))) b)
    (hfail : ∀ failure, IsQueryFailure failure → QueryMayFail fails (.int 1) none →
      post (some (.error (.known failure))) b) :
    (t.status path).Ensures (Bucket.environment fails) sends post b := by
  refine Action.ensures_bind (ensures_key ?_)
  rw [hresolve]
  show Action.Ensures _ _ _ (if key == Key.root then _ else _) b
  rw [if_neg fun h => hroot (eq_of_beq h)]
  refine Action.ensures_bind (ensures_statusOf hloud (hask _ trivial) ?_ ?_ ?_)
  · intro object hobject
    exact Action.ensures_pure (hfile object hobject)
  · intro hobject
    have hnone := Bucket.contents_eq_none.2 hobject
    refine Action.ensures_bind (Directory.ensures_markerStatus hloud hroot hask ?_ ?_ ?_)
    · intro marker hmarker
      have hthere : b.contents (key ++ t.suffix) ≠ none := by
        rw [Bucket.contents_of_find? hmarker]
        exact Option.some_ne_none _
      exact Action.ensures_pure (hdirectory _ hnone (Or.inr (Or.inl hthere))
        (iff_of_false (Option.some_ne_none _) hthere))
    · intro hmarker
      have hunmarked := Bucket.contents_eq_none.2 hmarker
      refine Action.ensures_bind (Directory.ensures_hasChildren hask ?_ ?_ ?_)
      · intro hbelow
        exact Action.ensures_pure (hdirectory none hnone (Or.inr (Or.inr hbelow))
          (iff_of_true rfl hunmarked))
      · intro hbelow
        rw [Key.directoryPrefix_eq hroot] at hbelow
        exact Action.ensures_fail
          (hmissing (Contents.isVacant_of_absent hroot hnone hunmarked hbelow))
      · intro failure hfailure hbreak
        exact hfail failure (Or.inr hfailure) (Or.inr hbreak)
    · intro failure hkind hfault
      exact hfail failure (Or.inl hkind) (Or.inl ⟨_, hfault⟩)
  · intro failure hkind hfault
    exact hfail failure (Or.inl hkind) (Or.inl ⟨_, hfault⟩)

/-! ## Deletion and renaming -/

/-- A deletion says that nothing exists only when its key is vacant. Objects below a directory that
have disappeared in the meantime are no reason to say so. -/
theorem ensures_delete_denies (hloud : Loud fails) (hresolve : t.resolve path = .ok key)
    (hroot : key ≠ Key.root) (isRecursive : Bool) (cancel : Option Token) :
    (t.delete path isRecursive cancel).Ensures (Bucket.environment fails) (fun _ _ => True)
      (DeniesOnly (b.contents.IsVacant t.suffix key)) b := by
  refine Program.Ensures.mono (ensures_delete hloud t path isRecursive cancel b) ?_
  rintro _ b' hend fault rfl habsent
  cases hend with
  | refused hpath => exact absurd (hpath key hresolve) hroot
  | stopped _ hfound => cases hfound.symm.trans habsent
  | settled hresolve' hdeletes =>
      cases hresolve.symm.trans hresolve'
      generalize b'.contents = after at hdeletes
      cases hdeletes with
      | notEmpty => cases habsent
      | absent hfile hmarker hbelow =>
          exact Contents.isVacant_of_absent hroot hfile hmarker hbelow

/-- A rename says that nothing exists only when its source is vacant. Objects of the source
directory that have disappeared in the meantime are no reason to say so. -/
theorem ensures_rename_denies (hloud : Loud fails) (hresolve : t.resolve path = .ok key)
    (destination : Value) (cancel : Option Token) (overwrite : Bool) :
    (t.rename path destination cancel overwrite).Ensures (Bucket.environment fails)
      (fun _ _ => True) (DeniesOnly (b.contents.IsVacant t.suffix key)) b := by
  refine ensures_rename_cases hloud (fun h => h) (fun _ _ => trivial) ?_ ?_ ?_ ?_ ?_ ?_
  · exact fun failure hfailure _ => deniesOnly_of_loud hfailure.isNotFound_eq_false
  · intro fault hrefused
    rcases ends_eq_error hrefused with hsource | hdestination | ⟨refusal, rfl⟩
    · cases hresolve.symm.trans hsource
    · rcases refusal_of_resolve hdestination with
        ⟨misuse, rfl⟩ | ⟨failure, rfl, ⟨code, hkind⟩ | ⟨refused, hkind⟩⟩
      · exact deniesOnly_of_loud rfl
      · exact deniesOnly_of_kind hkind nofun
      · exact deniesOnly_of_kind hkind nofun
    · exact deniesOnly_of_loud rfl
  · exact fun _ _ _ _ => deniesOnly_of_loud rfl
  · intro source newKey hends _ hnone hdirectory
    cases hresolve.symm.trans (ends_eq_ok hends).1
    exact deniesOnly_of_vacant ⟨hnone, hdirectory⟩ _
  · intro source newKey hends _ hfile
    obtain ⟨-, -, hne, -⟩ := checkEnds_eq_ok (ends_eq_ok hends).2.2
    refine Move.ensures_file hloud hne hfile (fun _ _ => trivial) (fun _ _ => trivial) ?_ ?_ ?_
    · exact fun _ _ => deniesOnly_ok _
    · exact fun failure _ hkind => deniesOnly_of_kind hkind nofun
    · exact fun _ failure _ _ hkind => deniesOnly_of_kind hkind nofun
  · intro source newKey _ _ _ _
    exact (allowsChanges_sound.raises_directory source.passes_isLoud newKey.passes_isLoud
      t.settings t.pageLimit cancel).denies

/-! ## All of them together -/

/-- In memory, `isFile` is true exactly when an object is at the key. -/
theorem isFile_eq {m : Memory} (hresolve : t.resolve path = .ok key) (hroot : key ≠ Key.root) :
    ∃ found, ((t.isFile path).perform (Memory.backend t.bucket) m).1 = some (.ok found) ∧
      (found = true ↔ (m.bucket t.bucket).contents key ≠ none) := by
  have hquery : (t.isFile path).Ensures (Bucket.environment Memory.refuses)
      (fun q _ => q.isQuery) (fun r _ => ∃ found, r = some (.ok found) ∧
        (found = true ↔ (m.bucket t.bucket).contents key ≠ none)) (m.bucket t.bucket) := by
    apply ensures_isFile Memory.loud_refuses hresolve hroot (fun _ hquery => hquery)
    · exact fun hfile => ⟨true, rfl, iff_of_true rfl hfile⟩
    · exact fun hnone => ⟨false, rfl, iff_of_false Bool.false_ne_true fun hfile => hfile hnone⟩
    · exact fun _ _ hmay => absurd hmay (not_queryMayFail (Int.le_refl 1))
  exact (hquery.run (Memory.backend_follows t.bucket)).2

/-- In memory, `exists?` is false exactly when the key is vacant. -/
theorem exists?_eq {m : Memory} (hresolve : t.resolve path = .ok key) (hroot : key ≠ Key.root) :
    ∃ found, ((t.exists? path).perform (Memory.backend t.bucket) m).1 = some (.ok found) ∧
      (found = false ↔ (m.bucket t.bucket).contents.IsVacant t.suffix key) := by
  have hquery : (t.exists? path).Ensures (Bucket.environment Memory.refuses)
      (fun q _ => q.isQuery) (fun r _ => ∃ found, r = some (.ok found) ∧
        (found = false ↔ (m.bucket t.bucket).contents.IsVacant t.suffix key))
      (m.bucket t.bucket) := by
    apply ensures_exists? Memory.loud_refuses hresolve hroot (fun _ hquery => hquery)
    · rintro (hfile | hdirectory)
      · exact ⟨true, rfl, iff_of_false nofun fun hvacant => hfile hvacant.1⟩
      · exact ⟨true, rfl, iff_of_false nofun fun hvacant => hvacant.2 hdirectory⟩
    · exact fun hvacant => ⟨false, rfl, iff_of_true rfl hvacant⟩
    · exact fun _ _ hmay => absurd hmay (not_queryMayFail (Int.le_refl 1))
  exact (hquery.run (Memory.backend_follows t.bucket)).2

end Tree

/-- The status is that of the object at the key, with its size, or that of a directory, whose time
is that of its marker. -/
structure FileStatus.Describes (suffix : String) (key : Key) (contents : Contents)
    (status : FileStatus) : Prop where
  isDirectory_iff : status.isDirectory = true ↔ contents key = none
  size_file : ∀ content, contents key = some content → status.size = content.length
  size_directory : contents key = none → status.size = 0
  time_directory : contents key = none →
    (status.modifiedMillis = none ↔ contents (key ++ suffix) = none)

namespace Tree

variable {t : Tree} {path : Value} {key : Key}

/-- In memory, `status` describes what is at the key; it fails with an absence exactly when the key
is vacant. -/
theorem status_eq {m : Memory} (hresolve : t.resolve path = .ok key) (hroot : key ≠ Key.root) :
    (∃ status, ((t.status path).perform (Memory.backend t.bucket) m).1 = some (.ok status) ∧
        status.Describes t.suffix key (m.bucket t.bucket).contents ∧
        ¬ (m.bucket t.bucket).contents.IsVacant t.suffix key) ∨
      ((t.status path).perform (Memory.backend t.bucket) m).1 =
          some (.error (.known (.notFound key (.noSuchEntry key)))) ∧
        (m.bucket t.bucket).contents.IsVacant t.suffix key := by
  have hquery : (t.status path).Ensures (Bucket.environment Memory.refuses)
      (fun q _ => q.isQuery) (fun r _ =>
        (∃ status, r = some (.ok status) ∧
          status.Describes t.suffix key (m.bucket t.bucket).contents ∧
          ¬ (m.bucket t.bucket).contents.IsVacant t.suffix key) ∨
        r = some (.error (.known (.notFound key (.noSuchEntry key)))) ∧
          (m.bucket t.bucket).contents.IsVacant t.suffix key) (m.bucket t.bucket) := by
    apply ensures_status Memory.loud_refuses hresolve hroot (fun _ hquery => hquery)
    · intro object hobject
      have hfile := Bucket.contents_of_find? hobject
      refine Or.inl ⟨_, rfl, ⟨?_, ?_, ?_, ?_⟩, fun hvacant => ?_⟩
      · rw [hfile]
        exact iff_of_false Bool.false_ne_true nofun
      · intro content hcontent
        rw [hfile] at hcontent
        cases hcontent
        rfl
      · rw [hfile]
        exact nofun
      · rw [hfile]
        exact nofun
      · exact absurd (hfile.symm.trans hvacant.1) (Option.some_ne_none _)
    · intro millis hnone hdirectory htime
      refine Or.inl ⟨_, rfl, ⟨iff_of_true rfl hnone, ?_, fun _ => rfl, fun _ => htime⟩,
        fun hvacant => hvacant.2 hdirectory⟩
      rw [hnone]
      exact nofun
    · exact fun hvacant => Or.inr ⟨rfl, hvacant⟩
    · exact fun _ _ hmay => absurd hmay (not_queryMayFail (Int.le_refl 1))
  exact (hquery.run (Memory.backend_follows t.bucket)).2

/-- On a store in memory, the queries for a path agree with the keys of the bucket and with each
other: `isFile` is true exactly when an object is at the key, `isDirectory` exactly when a marker is
there or some key lies below, `exists?` when one of them is, and `status`, `delete` and `rename` say
that nothing exists only when neither is. -/
theorem existence_agrees (t : Tree) (path : Value) (m : Memory) {key : Key}
    (hresolve : t.resolve path = .ok key) (hroot : key ≠ Key.root) :
    ∃ isFile isDirectory,
      ((t.isFile path).perform (Memory.backend t.bucket) m).1 = some (.ok isFile) ∧
      (isFile = true ↔ (m.bucket t.bucket).contents key ≠ none) ∧
      ((t.isDirectory path).perform (Memory.backend t.bucket) m).1 = some (.ok isDirectory) ∧
      (isDirectory = true ↔ (m.bucket t.bucket).contents (key ++ t.suffix) ≠ none ∨
        ∃ rest, (m.bucket t.bucket).contents (key ++ "/" ++ rest) ≠ none) ∧
      ((t.exists? path).perform (Memory.backend t.bucket) m).1 =
        some (.ok (isFile || isDirectory)) ∧
      ((∃ status, ((t.status path).perform (Memory.backend t.bucket) m).1 = some (.ok status) ∧
          status.Describes t.suffix key (m.bucket t.bucket).contents ∧
          (isFile || isDirectory) = true) ∨
        ((t.status path).perform (Memory.backend t.bucket) m).1 =
            some (.error (.known (.notFound key (.noSuchEntry key)))) ∧
          (isFile || isDirectory) = false) ∧
      (∀ isRecursive cancel fault,
        ((t.delete path isRecursive cancel).perform (Memory.backend t.bucket) m).1 =
            some (.error fault) →
          fault.isAbsence = true → (isFile || isDirectory) = false) ∧
      ∀ destination cancel overwrite fault,
        ((t.rename path destination cancel overwrite).perform (Memory.backend t.bucket) m).1 =
            some (.error fault) →
          fault.isAbsence = true → (isFile || isDirectory) = false := by
  obtain ⟨isFile, hisFile, hfile⟩ := isFile_eq (m := m) hresolve hroot
  obtain ⟨isDirectory, hisDirectory, hdirectory⟩ := isDirectory_eq (m := m) hresolve
  obtain ⟨found, hfound, hvacant⟩ := exists?_eq (m := m) hresolve hroot
  -- either query fails exactly where both do
  have hneither : (isFile || isDirectory) = false ↔
      (m.bucket t.bucket).contents.IsVacant t.suffix key := by
    rw [Bool.or_eq_false_iff, ← Bool.not_eq_true, ← Bool.not_eq_true, hfile, hdirectory, not_ne_iff]
    exact Iff.rfl
  obtain rfl : found = (isFile || isDirectory) := by
    rw [Bool.eq_iff_iff, ← not_iff_not, Bool.not_eq_true, Bool.not_eq_true, hvacant, hneither]
  have hfollows := Memory.backend_follows t.bucket
  refine ⟨isFile, isDirectory, hisFile, hfile, hisDirectory, ?_, hfound, ?_, ?_, ?_⟩
  · rw [hdirectory]
    unfold Directory.IsAt
    rw [Key.directoryPrefix_eq hroot, or_iff_right hroot]
  · rcases status_eq (m := m) hresolve hroot with ⟨status, hstatus, hdescribes, hthere⟩ | hmissing
    · refine Or.inl ⟨status, hstatus, hdescribes, ?_⟩
      rwa [← hneither, Bool.not_eq_false] at hthere
    · exact Or.inr ⟨hmissing.1, hneither.2 hmissing.2⟩
  · intro isRecursive cancel fault hfault habsent
    have hdelete := ensures_delete_denies (b := m.bucket t.bucket) Memory.loud_refuses hresolve
      hroot isRecursive cancel
    exact hneither.2 ((hdelete.run hfollows).2 fault hfault habsent)
  · intro destination cancel overwrite fault hfault habsent
    have hrename := ensures_rename_denies (b := m.bucket t.bucket) Memory.loud_refuses hresolve
      destination cancel overwrite
    exact hneither.2 ((hrename.run hfollows).2 fault hfault habsent)

/-- A bucket where `s` is an object and also a directory; `st` starts with the same letter but lies
outside of it. -/
def twofold : Memory := .ofObjects "b" [("s", [7, 8]), ("s/a", [2]), ("st", [3])]

/-- The path `/s` is a file and a directory at once; its status is that of the file, and no
operation denies it. -/
theorem existence_agrees_twofold :
    keyByKey.resolve "/s" = .ok "s" ∧ "s" ≠ Key.root ∧
    ((keyByKey.isFile "/s").perform (Memory.backend "b") twofold).1 = some (.ok true) ∧
    ((keyByKey.isDirectory "/s").perform (Memory.backend "b") twofold).1 = some (.ok true) ∧
    (∃ status, ((keyByKey.status "/s").perform (Memory.backend "b") twofold).1 =
        some (.ok status) ∧ status.isDirectory = false ∧ status.size = 2) ∧
    ∀ isRecursive cancel fault,
      ((keyByKey.delete "/s" isRecursive cancel).perform (Memory.backend "b") twofold).1 =
        some (.error fault) → fault.isAbsence = false := by
  have hroot : "s" ≠ Key.root := by decide
  have hobject : (twofold.bucket "b").contents "s" = some [7, 8] := by decide +kernel
  have hbelow : (twofold.bucket "b").contents ("s" ++ "/" ++ "a") ≠ none := by decide +kernel
  obtain ⟨isFile, isDirectory, hisFile, hfile, hisDirectory, hdirectory, -, hstatus, hdelete, -⟩ :=
    existence_agrees keyByKey "/s" twofold rfl hroot
  obtain rfl : isFile = true := hfile.2 (hobject ▸ Option.some_ne_none _)
  obtain rfl : isDirectory = true := hdirectory.2 (Or.inr ⟨"a", hbelow⟩)
  refine ⟨rfl, hroot, hisFile, hisDirectory, ?_, ?_⟩
  · rcases hstatus with ⟨status, hstatus, hdescribes, -⟩ | ⟨-, hfalse⟩
    · refine ⟨status, hstatus, ?_, hdescribes.size_file _ hobject⟩
      rw [← Bool.not_eq_true, hdescribes.isDirectory_iff]
      exact fun hnone => absurd (hobject.symm.trans hnone) (Option.some_ne_none _)
    · cases hfalse
  · intro isRecursive cancel fault hfault
    rw [← Bool.not_eq_true]
    intro habsent
    cases hdelete isRecursive cancel fault hfault habsent

end Tree

end BucketTree
