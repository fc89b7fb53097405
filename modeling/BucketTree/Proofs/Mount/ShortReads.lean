import BucketTree.Proofs.Mount.Truncation
import BucketTree.Proofs.Store.Pieces

/-!
# Short reads

A file that is not open for writing is read by a single read of its stream, which gives the first
piece only. A read of the mount returns that piece, although the file may go on
(`Mount.read_exact_iff`), and a truncation replaces the bytes after the piece by zeros
(`Mount.truncate_exact_iff`). A buffer, and a read to the end, give all bytes.
-/

set_option autoImplicit false

namespace BucketTree

variable {σ : Type} {backend : Backend σ} {view : σ → Bucket} {fails : Request → Fault → Prop}
variable {t : Tree} {path : Value} {key : Key} {bytes : Bytes} {stream : Stream}
variable {offset size : Nat} {s s₁ : σ}

/-! ## Files read from the store -/

/-- The stream of an object is over its bytes from the offset on. -/
theorem handsOut_of_opened (hf : backend.Follows view (Bucket.piecewise fails))
    (hcontents : (view s).contents key = some bytes)
    (hopened : backend.answer (.openRange key (.int offset)) s = (.ok stream, s₁)) :
    view s₁ = view s ∧ stream.HandsOut (bytes.drop offset) := by
  have hanswer := hf.answer (.openRange key (.int offset)) s
  rw [hopened] at hanswer
  obtain ⟨hkept, content, hcontent, hstream⟩ := Bucket.PiecewiseAnswers.openRange hanswer
  rw [hcontents] at hcontent
  obtain rfl := Option.some.inj hcontent
  exact ⟨hkept, hstream⟩

namespace Tree

/-- A single read of a file returns the first `size` bytes of the first piece. -/
theorem readOnce_of_handsOut (h : t.Names path key)
    (hopened : backend.answer (.openRange key (.int offset)) s = (.ok stream, s₁))
    (hstream : stream.HandsOut bytes) (hroom : (size : Int) < Word.memoryLimit) :
    (t.readOnce path (.int offset) size).perform backend s =
      (some (.ok (stream.firstPiece.take size)), s₁) := by
  have hopen := openForRead_of_answer h (Int.natCast_nonneg offset) hopened
  obtain ⟨reader, hread, hclose⟩ := hstream.read_start key (.int offset) hroom
  rw [readOnce_of_openForRead hopen, hread, hclose]

/-- A read of a file to its end returns all bytes from the offset on. -/
theorem readOnce_toEnd (h : t.Names path key)
    (hopened : backend.answer (.openRange key (.int offset)) s = (.ok stream, s₁))
    (hstream : stream.HandsOut bytes) :
    (t.readOnce path (.int offset) (-1)).perform backend s = (some (.ok bytes), s₁) := by
  have hopen := openForRead_of_answer h (Int.natCast_nonneg offset) hopened
  obtain ⟨reader, hread, hclose⟩ := hstream.readAll_start key (.int offset)
  rw [readOnce_of_openForRead hopen, hread, hclose]

end Tree

namespace Mount

variable {m : Mount} {given : Option Int}

/-! ## Truncation -/

/-- Truncating a file that is not open for writing stores the first piece, cut or padded with zeros
to the size. This is the file, cut or padded to the size, exactly when the bytes of the file between
the piece and the size are zeros. A read to the end, by which a file is opened for writing, does not
depend on the pieces. -/
theorem truncate_exact_iff (hf : backend.Follows view (Bucket.piecewise fails))
    (h : m.LeadsNowhere path given) (hnames : t.Names path key)
    (hcontents : (view s).contents key = some bytes) (hroom : (size : Int) < Word.memoryLimit)
    (hopened : backend.answer (.openRange key (.int 0)) s = (.ok stream, s₁)) :
    (∃ outcome s', (truncate t path size given).perform backend m s =
        (some (outcome.mapError reportedAs, m), s') ∧
      Writer.Uploads backend view key (stream.firstPiece.resize size) (if size = 0 then s else s₁)
        outcome s' ∧
      Replaces view key (stream.firstPiece.resize size) s (outcome.mapError reportedAs) s') ∧
    (stream.firstPiece.resize size = bytes.resize size ↔
      ∀ b ∈ (bytes.take size).drop stream.firstPiece.length, b = 0) ∧
    (t.readOnce path (.int 0) (-1)).perform backend s = (some (.ok bytes), s₁) := by
  have hstart : backend.answer (.openRange key (.int (0 : Nat))) s = (.ok stream, s₁) := hopened
  obtain ⟨hkept, hstream⟩ := handsOut_of_opened hf hcontents hstart
  rw [List.drop_zero] at hstream
  refine ⟨?_, Bytes.resize_eq_resize_iff hstream.firstPiece_prefix,
    Tree.readOnce_toEnd hnames hstart hstream⟩
  -- the first piece is taken for the whole file from here on
  obtain ⟨outcome, s', hresize, huploads⟩ := Tree.resizeFile_of_read hf.stores_of_piecewise hnames
    hroom fun _ => Tree.readOnce_of_handsOut hnames hstart hstream hroom
  refine ⟨outcome, s', truncate_of_resizeFile h hresize, huploads,
    huploads.replaces.of_view_eq ?_⟩
  split
  · rfl
  · exact hkept

/-- A store with a file of six bytes. -/
def sixBytes : Memory := .ofObjects "b" [("f", [1, 2, 3, 4, 5, 6])]

theorem truncate_exact_iff_cut :
    ∃ outcome memory,
      (truncate Tree.keyByKey "/f" (4 : Nat) none).perform (Memory.byteByByte "b") fresh sixBytes =
        (some (outcome, fresh), memory) ∧
      Replaces (Memory.bucket "b") "f" [1, 0, 0, 0] sixBytes outcome memory ∧
      ([1, 0, 0, 0] : Bytes) ≠ Bytes.resize [1, 2, 3, 4, 5, 6] 4 := by
  have hnowhere : fresh.LeadsNowhere "/f" none := .byPath (by simp) rfl rfl
  have hnames : Tree.keyByKey.Names "/f" "f" := ⟨rfl, by decide⟩
  have hroom : ((4 : Nat) : Int) < Word.memoryLimit := by decide
  have hcontents : (sixBytes.bucket "b").contents "f" = some [1, 2, 3, 4, 5, 6] := rfl
  have hopened : (Memory.byteByByte "b").answer (.openRange "f" (.int 0)) sixBytes =
      (.ok (.oneByOne ⟨[1, 2, 3, 4, 5, 6], none⟩), (sixBytes.get "b" "f").2) := rfl
  obtain ⟨⟨outcome, memory, htruncate, -, hreplaces⟩, hexact, -⟩ :=
    truncate_exact_iff (Memory.byteByByte_follows "b") hnowhere hnames hcontents hroom hopened
  refine ⟨_, memory, htruncate, hreplaces, fun heq => ?_⟩
  exact absurd (hexact.1 heq) (by decide)

/-- Truncating six bytes to four leaves one byte and three zeros on a store that streams bytes one
by one, and the first four bytes on a store that does not. -/
theorem truncate_loses_bytes :
    (∃ memory, (truncate Tree.keyByKey "/f" 4 none).perform (Memory.byteByByte "b") fresh
        sixBytes = (some (.ok (), fresh), memory) ∧
      (memory.bucket "b").contents "f" = some [1, 0, 0, 0]) ∧
    (∃ memory, (truncate Tree.keyByKey "/f" 4 none).perform (Memory.backend "b") fresh
        sixBytes = (some (.ok (), fresh), memory) ∧
      (memory.bucket "b").contents "f" = some [1, 2, 3, 4]) := by
  refine ⟨⟨_, rfl, ?_⟩, ⟨_, rfl, ?_⟩⟩
  · rfl
  · rfl

/-! ## Reading -/

/-- A read through a handle without a writer returns the first piece from the offset on, cut to the
size. It returns all requested bytes exactly when the piece contains them, and only an empty result
indicates the end of the file. A buffer with the same bytes returns all of them. -/
theorem read_exact_iff (hf : backend.Follows view (Bucket.piecewise fails))
    (h : given.bind m.writer? = none) (hnames : t.Names path key)
    (hcontents : (view s).contents key = some bytes) (hroom : (size : Int) < Word.memoryLimit)
    (hopened : backend.answer (.openRange key (.int offset)) s = (.ok stream, s₁)) :
    (read t path size offset given).perform backend m s =
      (some (.ok (stream.firstPiece.take size), m), s₁) ∧
    view s₁ = view s ∧
    (stream.firstPiece.take size = (bytes.drop offset).take size ↔
      min size (bytes.length - offset) ≤ stream.firstPiece.length) ∧
    (stream.firstPiece.take size = [] ↔ size = 0 ∨ bytes.length ≤ offset) ∧
    ∀ {held : Mount} {handle : Int} {w : Writer} {other : Key}, held.writer? handle = some w →
      w.HasRoom other bytes → (offset : Int) < Word.memoryLimit →
      ∃ w', (read t path size offset (some handle)).perform backend held s =
          (some (.ok ((bytes.drop offset).take size), held.setWriter handle w'), s) ∧
        w'.HasRoom other bytes := by
  obtain ⟨hkept, hstream⟩ := handsOut_of_opened hf hcontents hopened
  refine ⟨?_, hkept, ?_, ?_, ?_⟩
  · unfold read
    rw [MountAction.perform_get_bind, h]
    exact perform_reported (Tree.readOnce_of_handsOut hnames hopened hstream hroom)
  · rw [Bytes.take_eq_take_iff hstream.firstPiece_prefix, List.length_drop]
  · rw [List.take_eq_nil_iff, hstream.firstPiece_eq_nil_iff, List.drop_eq_nil_iff]
  · intro held handle w other hw hheld hoffset
    obtain ⟨w', hread, hheld'⟩ := hheld.readAt hoffset hroom
    refine ⟨w', ?_, hheld'⟩
    rw [perform_read hw, hread]
    rfl

theorem read_exact_iff_cut :
    ∃ memory,
      (read Tree.keyByKey "/f" (3 : Nat) (2 : Nat) none).perform (Memory.byteByByte "b") fresh
        sixBytes = (some (.ok [3], fresh), memory) ∧
      ([3] : Bytes) ≠ (([1, 2, 3, 4, 5, 6] : Bytes).drop 2).take 3 := by
  have hnames : Tree.keyByKey.Names "/f" "f" := ⟨rfl, by decide⟩
  have hroom : ((3 : Nat) : Int) < Word.memoryLimit := by decide
  have hhandle : (none : Option Int).bind fresh.writer? = none := rfl
  have hcontents : (sixBytes.bucket "b").contents "f" = some [1, 2, 3, 4, 5, 6] := rfl
  have hopened : (Memory.byteByByte "b").answer (.openRange "f" (.int (2 : Nat))) sixBytes =
      (.ok (.oneByOne ⟨[3, 4, 5, 6], none⟩), (sixBytes.get "b" "f").2) := rfl
  obtain ⟨hread, -, hexact, -⟩ := read_exact_iff (Memory.byteByByte_follows "b") hhandle hnames
    hcontents hroom hopened
  exact ⟨_, hread, fun heq => absurd (hexact.1 heq) (by decide)⟩

/-- Reading four bytes of a file of six returns one byte on a store that streams bytes one by one,
while the buffer of the same file, opened for writing, returns all four. -/
theorem read_falls_short :
    ((read Tree.keyByKey "/f" 4 0 none).perform (Memory.byteByByte "b") fresh sixBytes).1 =
      some (.ok [1], fresh) ∧
    ∃ m memory, (openFile Tree.keyByKey "/f" 1).perform (Memory.byteByByte "b") fresh sixBytes =
        (some (.ok 1, m), memory) ∧
      ((read Tree.keyByKey "/f" 4 0 (some 1)).perform (Memory.byteByByte "b") m memory).1.map
        (·.1) = some (.ok [1, 2, 3, 4]) :=
  ⟨rfl, _, _, rfl, rfl⟩

end Mount

end BucketTree
