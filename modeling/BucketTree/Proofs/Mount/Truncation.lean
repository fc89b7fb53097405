import BucketTree.Proofs.Mount.Opening
import BucketTree.Proofs.Tree.Existence
import BucketTree.Proofs.Tree.Halts

/-!
# Truncating files

Truncating a stored file gives it exactly the requested size: it is cut or padded with zeros
(`Tree.resizeFile`). The buffer of a file that is open for writing is cut as well, but it is padded
on disk only (`Spool.truncated`). So the two agree when the size is at most the length of the
content, when the buffer is on disk, and when the size exceeds the limit at which the buffer moves
to disk (`Mount.truncate_agrees_iff`); otherwise the file keeps its size.
-/

set_option autoImplicit false

namespace BucketTree

variable {σ : Type} {backend : Backend σ} {view : σ → Bucket} {fails : Request → Fault → Prop}
variable {key : Key} {bytes : Bytes} {size : Nat} {s s' : σ}

/-! ## Buffers -/

namespace Spool

/-- The content of a buffer after a truncation. -/
def truncated (size : Nat) (s : Spool) : Bytes :=
  if s.onDisk || decide (s.maxSize < size) then s.bytes.resize size else s.bytes.take size

/-- Cutting agrees with resizing exactly when the size is at most the length. -/
theorem take_eq_resize_iff : bytes.take size = bytes.resize size ↔ size ≤ bytes.length := by
  unfold Bytes.resize
  rw [List.self_eq_append_right, List.replicate_eq_nil_iff]
  omega

/-- A truncated buffer agrees with a resized file, unless it is shorter than the size and stays in
memory. -/
theorem truncated_eq_resize_iff {spool : Spool} : spool.truncated size = spool.bytes.resize size ↔
    size ≤ spool.bytes.length ∨ spool.onDisk = true ∨ spool.maxSize < size := by
  unfold truncated
  split
  next hgrows =>
    rw [Bool.or_eq_true, decide_eq_true_iff] at hgrows
    exact iff_of_true rfl (Or.inr hgrows)
  next hgrows =>
    rw [Bool.or_eq_true, decide_eq_true_iff] at hgrows
    rw [take_eq_resize_iff]
    exact ⟨Or.inl, fun h => h.resolve_right hgrows⟩

end Spool

/-- Truncating a writer truncates its buffer. -/
theorem Writer.Holds.truncate_of_room {w : Writer} (h : w.Holds key bytes) (hs : w.spool.InOrder)
    (hroom : (bytes.length : Int) ≤ Word.diskLimit) (hsize : (size : Int) ≤ Word.diskLimit) :
    ∃ w', w.truncate (some (size : Int)) = (.ok (size : Int), w') ∧
      w'.Holds key (w.spool.truncated size) ∧ w'.spool.InOrder := by
  obtain ⟨spool, htruncate, hinOrder, hbytes⟩ := Spool.truncate_of_room hs
    (by rw [h.buffer.position_eq]; exact hroom) (Int.natCast_nonneg size) hsize
  rw [Spool.onDisk_of_truncate htruncate, Int.toNat_natCast] at hbytes
  refine ⟨{ w with spool := spool.atEnd }, ?_, ⟨h.key_eq, h.isOpen, ?_⟩,
    Spool.inOrder_atEnd hinOrder⟩
  · simp [Writer.truncate, htruncate]
  · exact Spool.holds_atEnd hinOrder hbytes

/-! ## Stored files -/

/-- The ends of a request that replaces the content of an object: it has the new content, or the
request is refused and nothing has changed. -/
inductive Replaces (view : σ → Bucket) (key : Key) (bytes : Bytes) (s : σ) :
    Except Refusal Unit → σ → Prop
  | done {s' : σ} (hstored : (view s').contents =
      Function.update (view s).contents key (some bytes)) : Replaces view key bytes s (.ok ()) s'
  | refused {refusal : Refusal} {s' : σ} (hkept : (view s').contents = (view s).contents) :
      Replaces view key bytes s (.error refusal) s'

theorem Replaces.of_view_eq {outcome : Except Refusal Unit} {s₁ : σ}
    (h : Replaces view key bytes s₁ outcome s') (hview : view s₁ = view s) :
    Replaces view key bytes s outcome s' := by
  cases h with
  | done hstored => exact .done (hview ▸ hstored)
  | refused hkept => exact .refused (hview ▸ hkept)

theorem Writer.Uploads.replaces {outcome : Except Fault Unit}
    (h : Writer.Uploads backend view key bytes s outcome s') :
    Replaces view key bytes s (outcome.mapError Mount.reportedAs) s' := by
  cases h with
  | stored hcarries hput hstored => exact .done hstored
  | failed hcarries hput hkept => exact .refused hkept

namespace Tree

variable {t : Tree} {path : Value}

/-- Storing a file sends one upload of its content. -/
theorem storeFile_of_names (hf : backend.Stores view fails)
    (h : t.Names path key) (hroom : (bytes.length : Int) < Word.memoryLimit) (s : σ) :
    ∃ outcome s', (t.storeFile path bytes).perform backend s = (some outcome, s') ∧
      Writer.Uploads backend view key bytes s outcome s' := by
  obtain ⟨hholds, hinOrder⟩ :=
    Writer.holds_start key (Writer.start_of_room Writer.defaultSpoolSize hroom)
  obtain ⟨outcome, w', s', hclose, -, huploads⟩ :=
    hholds.close_of_stores hf (Writer.HasRoom.size ⟨hholds, hinOrder, hroom⟩) s
  refine ⟨outcome, s', ?_, huploads⟩
  have hlift : (Action.lift (Writer.start key bytes Writer.defaultSpoolSize).close).perform
      backend s = (some (.ok (outcome, w')), s') := by
    rw [Action.run_lift, hclose]
    rfl
  unfold storeFile closeWriter
  rw [Action.run_bind, openForWrite_of_names h bytes s]
  dsimp only
  rw [Action.run_bind, hlift]
  rfl

/-- Resizes a stored file: reads up to `size` bytes of it and stores them again, padded with
zeros. -/
def resizeFile (t : Tree) (path : Value) (size : Nat) : Action Unit := do
  let data ← if 0 < size then t.readOnce path (.int 0) size else pure []
  t.storeFile path (data ++ List.replicate (size - data.length) 0)

/-- The program `resizeFile` stores the bytes that were read, resized. For the size zero it reads
nothing. -/
theorem resizeFile_of_read (hf : backend.Stores view fails) (h : t.Names path key)
    (hroom : (size : Int) < Word.memoryLimit) {s₁ : σ}
    (hread : 0 < size → (t.readOnce path (.int 0) size).perform backend s =
      (some (.ok (bytes.take size)), s₁)) :
    ∃ outcome s', (t.resizeFile path size).perform backend s = (some outcome, s') ∧
      Writer.Uploads backend view key (bytes.resize size) (if size = 0 then s else s₁) outcome
        s' := by
  have hlength : ((bytes.resize size).length : Int) < Word.memoryLimit := by
    rw [Bytes.length_resize]
    exact hroom
  unfold resizeFile
  by_cases hpositive : 0 < size
  · have hpadded : bytes.take size ++ List.replicate (size - (bytes.take size).length) 0 =
        bytes.resize size := by
      have hmissing : size - min size bytes.length = size - bytes.length := by omega
      rw [List.length_take, hmissing]
      rfl
    rw [if_pos hpositive, if_neg (by omega), Action.run_bind, hread hpositive]
    dsimp only
    rw [hpadded]
    exact storeFile_of_names hf h hlength s₁
  · obtain rfl : size = 0 := by omega
    have hempty : bytes.resize 0 = [] := List.length_eq_zero_iff.1 (Bytes.length_resize bytes 0)
    rw [hempty] at hlength ⊢
    exact storeFile_of_names hf h hlength s

/-- The size of a successful read fits into a machine word. -/
theorem fits_of_readOnce {offset : Value} {size : Int} {data : Bytes}
    (h : (t.readOnce path offset size).perform backend s = (some (.ok data), s')) :
    Word.fits size = true := by
  by_contra hfits
  rw [Bool.not_eq_true] at hfits
  obtain ⟨opened, s₁, hopen⟩ := (t.halts_openForRead path offset).exists_perform backend s
  cases opened with
  | error fault =>
      rw [readOnce_of_openForRead_error hopen] at h
      cases h
  | ok reader =>
      rw [readOnce_of_openForRead hopen] at h
      unfold Reader.read at h
      rw [hfits, Bool.not_false, if_pos rfl] at h
      split at h <;> cases h

/-- A single read of an object returns its first `size` bytes, or it fails. -/
theorem readOnce_of_contents (hf : backend.Follows view (Bucket.environment fails))
    (h : t.Names path key) (hcontents : (view s).contents key = some bytes)
    (hroom : (size : Int) < Word.memoryLimit) :
    ∃ outcome s', (t.readOnce path (.int 0) size).perform backend s = (some outcome, s') ∧
      view s' = view s ∧ ((∃ fault, outcome = .error fault) ∨ outcome = .ok (bytes.take size)) := by
  have hanswer := hf.answer (.openRange key (.int 0)) s
  rcases hopen : backend.answer (.openRange key (.int 0)) s with ⟨outcome, s'⟩
  rw [hopen] at hanswer
  have hread := openForRead_of_answer h (Int.le_refl 0) hopen
  dsimp only at hanswer
  generalize hb : view s' = b at hanswer
  cases hanswer with
  | failed hfault =>
      exact ⟨_, s', readOnce_of_openForRead_error hread, hb, Or.inl ⟨_, rfl⟩⟩
  | absent hneeds hkey =>
      exact ⟨_, s', readOnce_of_openForRead_error hread, hb, Or.inl ⟨_, rfl⟩⟩
  | @openRange _ _ _ object hkey =>
      rw [Bucket.contents_of_find? hkey] at hcontents
      obtain rfl := Option.some.inj hcontents
      have hreader : opened key 0 (Stream.ofBodyFrom (.int 0) object.body) =
          .ok (.start (.ofBody object.body) key (.int 0)) := by
        rw [Stream.ofBodyFrom_int, Body.suffix_zero]
        rfl
      rw [hreader] at hread
      obtain ⟨reader, hpiece, hclose⟩ :=
        (Stream.handsOut_ofBody object.body).read_start key (.int 0) hroom
      refine ⟨_, s', readOnce_of_openForRead hread, hb, Or.inr ?_⟩
      rw [hpiece, hclose]
      rfl

end Tree

namespace Mount

variable {m : Mount} {t : Tree} {path : Value} {given : Option Int} {handle : Int} {w : Writer}

/-- Truncating a file that is not open for writing is `resizeFile`. -/
theorem perform_truncate_of_leadsNowhere (h : m.LeadsNowhere path given) (t : Tree) (size : Nat)
    (s : σ) :
    ∃ outcome s', (t.resizeFile path size).perform backend s = (some outcome, s') ∧
      (truncate t path size given).perform backend m s =
        (some (outcome.mapError reportedAs, m), s') := by
  have hstore : ∀ (data : Bytes) (s : σ), Word.fits (size : Int) = true → ∃ outcome s',
      (t.storeFile path (data ++ List.replicate (size - data.length) 0)).perform backend s =
        (some outcome, s') ∧
      MountAction.perform backend
        (do
          unless Word.fits (size : Int) do throw (.fault (.misuse (.outOfRange .count)))
          reported (t.storeFile path
            (data ++ List.replicate ((size : Int).toNat - data.length) 0))) m s =
          (some (outcome.mapError reportedAs, m), s') := by
    intro data s hfits
    obtain ⟨outcome, s', hstored⟩ := (t.halts_storeFile path _).exists_perform backend s
    refine ⟨outcome, s', hstored, ?_⟩
    rw [hfits, Int.toNat_natCast]
    exact perform_reported hstored
  unfold truncate Tree.resizeFile
  rw [MountAction.perform_bind, MountAction.perform_of_run (addressed_of_leadsNowhere h)]
  dsimp only
  by_cases hpositive : 0 < size
  · obtain ⟨outcome, s₁, hread⟩ := (t.halts_readOnce path (.int 0) size).exists_perform backend s
    rw [if_pos hpositive, if_pos (Int.natCast_pos.2 hpositive), Action.run_bind, hread,
      MountAction.perform_bind, perform_reported hread]
    cases outcome with
    | error fault => exact ⟨_, s₁, rfl, rfl⟩
    | ok data => exact hstore data s₁ (Tree.fits_of_readOnce hread)
  · obtain rfl : size = 0 := by omega
    exact hstore [] s rfl

theorem truncate_of_resizeFile {outcome : Except Fault Unit} (h : m.LeadsNowhere path given)
    (hresize : (t.resizeFile path size).perform backend s = (some outcome, s')) :
    (truncate t path size given).perform backend m s =
      (some (outcome.mapError reportedAs, m), s') := by
  obtain ⟨_, _, hrun, htruncate⟩ := perform_truncate_of_leadsNowhere h t size s
  rw [hresize] at hrun
  cases hrun
  exact htruncate

/-- Truncating a file that is not open for writing stores its content resized, or it is refused and
nothing has changed. -/
theorem truncate_of_leadsNowhere (hf : backend.Follows view (Bucket.environment fails))
    (h : m.LeadsNowhere path given) (hnames : t.Names path key)
    (hcontents : (view s).contents key = some bytes) (hroom : (size : Int) < Word.memoryLimit) :
    ∃ outcome s', (truncate t path size given).perform backend m s = (some (outcome, m), s') ∧
      Replaces view key (bytes.resize size) s outcome s' := by
  obtain ⟨read, s₁, hread, hkept, hbytes⟩ := Tree.readOnce_of_contents hf hnames hcontents hroom
  by_cases hrefused : 0 < size ∧ ∃ fault, read = .error fault
  · -- nothing is stored that was not read
    obtain ⟨hpositive, fault, rfl⟩ := hrefused
    have hresize : (t.resizeFile path size).perform backend s = (some (.error fault), s₁) := by
      unfold Tree.resizeFile
      rw [if_pos hpositive, Action.run_bind, hread]
    exact ⟨_, s₁, truncate_of_resizeFile h hresize, .refused (congrArg Bucket.contents hkept)⟩
  · have hfirst : 0 < size → (t.readOnce path (.int 0) size).perform backend s =
        (some (.ok (bytes.take size)), s₁) := by
      intro hpositive
      rw [hread, hbytes.resolve_left fun hfault => hrefused ⟨hpositive, hfault⟩]
    obtain ⟨outcome, s', hresize, huploads⟩ :=
      Tree.resizeFile_of_read hf.stores hnames hroom hfirst
    refine ⟨_, s', truncate_of_resizeFile h hresize, huploads.replaces.of_view_eq ?_⟩
    split
    · rfl
    · exact hkept

/-- After truncating a file that is open for writing, its size and the content of its upload are
those of the truncated buffer. These agree with a resized stored file with the same bytes exactly
when the buffer is not shorter than the size, or is on disk, or moves there. -/
theorem truncate_agrees_iff (hf : backend.Follows view (Bucket.environment fails)) (t : Tree)
    (hlead : m.Leads path given handle w) (hheld : w.Holds key bytes) (hinOrder : w.spool.InOrder)
    (hheldRoom : (bytes.length : Int) ≤ Word.diskLimit) (hroom : (size : Int) ≤ Word.diskLimit)
    (s : σ) :
    (∃ w' outcome s',
      (truncate t path size given).perform backend m s =
        (some (.ok (), m.setWriter handle w'), s) ∧
      w'.Holds key (w.spool.truncated size) ∧
      (getAttributes t path given).perform backend (m.setWriter handle w') s =
        (some (.ok (.ofFile (w.spool.truncated size).length none), m.setWriter handle w'), s) ∧
      (release (some handle)).perform backend (m.setWriter handle w') s =
        (some (outcome, (m.setWriter handle w').dropHandle handle), s') ∧
      Replaces view key (w.spool.truncated size) s outcome s') ∧
    (∀ {stored : Key} {m₀ : Mount} {given₀ : Option Int} {s₀ : σ}, m₀.LeadsNowhere path given₀ →
      t.Names path stored → (view s₀).contents stored = some bytes →
      (size : Int) < Word.memoryLimit →
      ∃ outcome s', (truncate t path size given₀).perform backend m₀ s₀ =
          (some (outcome, m₀), s') ∧
        Replaces view stored (bytes.resize size) s₀ outcome s') ∧
    (w.spool.truncated size = bytes.resize size ↔
      size ≤ bytes.length ∨ w.spool.onDisk = true ∨ w.spool.maxSize < size) := by
  obtain ⟨w', htruncate, hheld', hinOrder'⟩ := hheld.truncate_of_room hinOrder hheldRoom hroom
  have hkey : w'.key = w.key := hheld'.key_eq.trans hheld.key_eq.symm
  have hlead' := hlead.setWriter hkey
  have hsize : w'.size = .ok (w.spool.truncated size).length := hheld'.size_of_inOrder hinOrder'
  obtain ⟨outcome, w'', s', hclose, -, huploads⟩ := hheld'.close hf hsize s
  refine ⟨⟨w', outcome.mapError reportedAs, s', ?_, hheld', ?_, ?_, huploads.replaces⟩, ?_, ?_⟩
  · rw [perform_truncate_of_leads hlead, htruncate]
    rfl
  · exact perform_getAttributes_of_leads hlead' hheld'.isOpen hsize t
  · exact perform_release hlead'.writer?_eq hclose
  · exact fun hnowhere hnames hcontents hmemory =>
      truncate_of_leadsNowhere hf hnowhere hnames hcontents hmemory
  · have hbytes : w.spool.bytes = bytes := (hheld.size (Spool.measure_of_inOrder hinOrder)).2.2
    rw [← hbytes]
    exact Spool.truncated_eq_resize_iff

/-- A mount with a file of three bytes open for writing. -/
def withShortFile : Mount := fresh.addWriter (.start "f" [1, 2, 3] Writer.defaultSpoolSize)

theorem truncate_agrees_iff_short :
    ∃ w, withShortFile.Leads "/f" none 1 w ∧ w.Holds "f" [1, 2, 3] ∧ w.spool.InOrder ∧
    (∃ w' outcome memory,
      (truncate Tree.keyByKey "/f" (10 : Nat) none).perform (Memory.backend "b") withShortFile
          Tree.husk = (some (.ok (), withShortFile.setWriter 1 w'), Tree.husk) ∧
      (getAttributes Tree.keyByKey "/f" none).perform (Memory.backend "b")
          (withShortFile.setWriter 1 w') Tree.husk =
        (some (.ok (.ofFile 3 none), withShortFile.setWriter 1 w'), Tree.husk) ∧
      (release (some 1)).perform (Memory.backend "b") (withShortFile.setWriter 1 w') Tree.husk =
        (some (outcome, (withShortFile.setWriter 1 w').dropHandle 1), memory) ∧
      Replaces (Memory.bucket "b") "f" [1, 2, 3] Tree.husk outcome memory) := by
  have hshort : (([1, 2, 3] : Bytes).length : Int) < Word.memoryLimit := by decide
  have hten : ((10 : Nat) : Int) ≤ Word.diskLimit := by decide
  obtain ⟨hholds, hinOrder⟩ :=
    Writer.holds_start "f" (Writer.start_of_room Writer.defaultSpoolSize hshort)
  have hlead : withShortFile.Leads "/f" none 1 (.start "f" [1, 2, 3] Writer.defaultSpoolSize) :=
    .byPath (by simp) rfl rfl
  have htruncated : (Writer.start "f" [1, 2, 3] Writer.defaultSpoolSize).spool.truncated 10 =
      [1, 2, 3] := by decide
  obtain ⟨⟨w', outcome, memory, htruncate, -, hsize, hrelease, hreplaces⟩, -⟩ :=
    truncate_agrees_iff (Memory.backend_follows "b") Tree.keyByKey hlead hholds hinOrder
      (by decide) hten Tree.husk
  rw [htruncated] at hsize hreplaces
  exact ⟨_, hlead, hholds, hinOrder, w', outcome, memory, htruncate, hsize, hrelease, hreplaces⟩

/-- A file is created with three bytes, truncated to ten, and released. The result is its size after
the truncation. -/
def lengthenCreated (t : Tree) : MountAction Nat := do
  let handle ← create t "/f" (.int 0o644)
  discard <| write [1, 2, 3] 0 (some handle)
  truncate t "/f" 10 (some handle)
  let attributes ← getAttributes t "/f" (some handle)
  release (some handle)
  return attributes.size

/-- A created file keeps its three bytes when it is truncated to ten, and a stored file is padded
with zeros. -/
theorem truncate_keeps_short :
    (∃ memory, (lengthenCreated Tree.keyByKey).perform (Memory.backend "b") fresh Tree.husk =
        (some (.ok 3, withShortFile.dropHandle 1), memory) ∧
      (memory.bucket "b").contents "f" = some [1, 2, 3]) ∧
    (∃ memory, (truncate Tree.keyByKey "/f" 10 none).perform (Memory.backend "b") fresh
        (.ofObjects "b" [("f", [1, 2, 3])]) = (some (.ok (), fresh), memory) ∧
      (memory.bucket "b").contents "f" = some [1, 2, 3, 0, 0, 0, 0, 0, 0, 0]) := by
  refine ⟨⟨_, rfl, ?_⟩, ⟨_, rfl, ?_⟩⟩
  · rfl
  · rfl

end Mount

end BucketTree
