import BucketTree.Proofs.Content.Writer
import BucketTree.Proofs.Program.Halts
import BucketTree.Proofs.Store.Effects

/-!
# Uploads of a writer

An upload sends the bytes that the writer holds. On a store that answers by its contents, either
exactly these bytes are stored at the key of the writer, or the request fails, the writer raises a
failure of writing, and nothing has changed (`Writer.Uploads`). In both cases the writer still holds
its bytes. A closed writer sends nothing.
-/

set_option autoImplicit false

namespace BucketTree.Writer

variable {σ : Type} {backend : Backend σ} {view : σ → Bucket} {fails : Request → Fault → Prop}
variable {w w' : Writer} {key : Key} {bytes : Bytes} {s s' : σ} {count : Nat}

/-! ## Uploads -/

/-- The upload of a list of bytes is one request that carries them. Either the store has them
afterwards, or its contents are unchanged and the fault of the request is reported. -/
inductive Uploads (backend : Backend σ) (view : σ → Bucket) (key : Key) (bytes : Bytes) (s : σ) :
    Except Fault Unit → σ → Prop
  | stored {upload : Upload} {block : Option BlockNumber} {s' : σ}
      (hcarries : upload.Carries bytes)
      (hput : backend.answer (.put key upload) s = (.ok block, s'))
      (hstored : (view s').contents = Function.update (view s).contents key (some bytes)) :
      Uploads backend view key bytes s (.ok ()) s'
  | failed {upload : Upload} {fault : Fault} {s' : σ}
      (hcarries : upload.Carries bytes)
      (hput : backend.answer (.put key upload) s = (.error fault, s'))
      (hkept : (view s').contents = (view s).contents) :
      Uploads backend view key bytes s
        (.error (.known (.write key
          (.uploadFailed key (fault.toFailure (some "PUT") (some key)).message)))) s'

theorem upload_of_ok {block : Option BlockNumber} (hsize : w.size = .ok count)
    (hput : backend.answer (.put w.key w.uploaded) s = (.ok block, s')) :
    w.upload.run backend s =
      (some (.ok (), { w with spool := w.spool.atEnd.stored block }), s') := by
  have hrun : (Program.put w.key w.uploaded).run backend s = (some (.ok block), s') := by
    show (some (backend.answer _ s).1, (backend.answer _ s).2) = _
    rw [hput]
  unfold upload
  rw [hsize]
  dsimp only
  rw [Program.run_bind, hrun]
  rfl

theorem upload_of_error {fault : Fault} (hsize : w.size = .ok count)
    (hput : backend.answer (.put w.key w.uploaded) s = (.error fault, s')) :
    w.upload.run backend s =
      (some (.error (.known (.write w.key
        (.uploadFailed w.key (fault.toFailure (some "PUT") (some w.key)).message))),
        { w with spool := w.spool.atEnd }), s') := by
  have hrun : (Program.put w.key w.uploaded).run backend s = (some (.error fault), s') := by
    show (some (backend.answer _ s).1, (backend.answer _ s).2) = _
    rw [hput]
  unfold upload
  rw [hsize]
  dsimp only
  rw [Program.run_bind, hrun]
  rfl

/-- When the buffer does not tell its size, nothing is sent. -/
theorem upload_of_size {misuse : Misuse} (hsize : w.size = .error misuse) :
    w.upload.run backend s = (some (.error (.misuse misuse), w), s) := by
  unfold upload
  rw [hsize]
  rfl

/-! ## Open and closed writers -/

theorem sync_of_isOpen (h : w.isClosed = false) : w.sync = w.upload := by
  unfold sync
  rw [h, if_neg Bool.false_ne_true]

/-- Closing a closed writer sends nothing. -/
theorem close_of_isClosed (h : w.isClosed = true) : w.close = pure (.ok (), w) := by
  unfold close
  rw [if_pos h]

theorem abort_of_isClosed (h : w.isClosed = true) : w.abort = (.ok (), w) := by
  unfold abort
  rw [if_pos h]

/-- A buffer that is not stuck closes without a fault. -/
theorem finish_of_not_isStuck (h : w.spool.isStuck = false) :
    ∃ w', w.finish = (.ok (), w') ∧ w'.isClosed = true := by
  unfold finish Spool.close
  rw [h, Bool.and_false, if_neg Bool.false_ne_true]
  exact ⟨_, rfl, rfl⟩

theorem finish_of_inOrder (h : w.spool.InOrder) :
    ∃ w', w.finish = (.ok (), w') ∧ w'.isClosed = true :=
  finish_of_not_isStuck (Spool.not_isStuck_of_inOrder h)

/-- Closing a writer has the outcome of its upload. -/
theorem close_of_upload {outcome : Except Fault Unit} (hopen : w.isClosed = false)
    (hupload : w.upload.run backend s = (some (outcome, w'), s'))
    (hstuck : w'.spool.isStuck = false) :
    ∃ w'', w.close.run backend s = (some (outcome, w''), s') ∧ w''.isClosed = true := by
  obtain ⟨w'', hfinish, hclosed⟩ := finish_of_not_isStuck hstuck
  refine ⟨w'', ?_, hclosed⟩
  unfold close
  rw [hopen, if_neg Bool.false_ne_true, Program.run_bind, hupload]
  dsimp only
  rw [hfinish]
  rfl

theorem run_close {outcome : Except Fault Unit} (hopen : w.isClosed = false)
    (hupload : w.upload.run backend s = (some (outcome, w'), s')) (hinOrder : w'.spool.InOrder) :
    ∃ w'', w.close.run backend s = (some (outcome, w''), s') ∧ w''.isClosed = true :=
  close_of_upload hopen hupload (Spool.not_isStuck_of_inOrder hinOrder)

/-! ## All uploads come to an end -/

theorem halts_upload (w : Writer) : w.upload.Halts := by
  unfold upload
  split
  · exact Program.halts_pure _
  · refine (Program.halts_request _).bind fun outcome => ?_
    cases outcome with
    | ok block => exact Program.halts_pure _
    | error fault => exact Program.halts_pure _

theorem halts_sync (w : Writer) : w.sync.Halts := by
  unfold sync
  split
  · exact Program.halts_pure _
  · exact halts_upload w

theorem halts_close (w : Writer) : w.close.Halts := by
  unfold close
  split
  · exact Program.halts_pure _
  · refine (halts_upload w).bind fun r => ?_
    dsimp only
    split
    · exact Program.halts_pure _
    · exact Program.halts_pure _

/-! ## The bytes of a writer on a store -/

namespace Holds

/-- The upload carries the bytes that the writer holds. -/
theorem carries_uploaded (h : w.Holds key bytes) (hsize : w.size = .ok count) :
    w.uploaded.Carries bytes := by
  obtain ⟨-, -, hcontent⟩ := h.size hsize
  refine ⟨hcontent, rfl, ?_⟩
  show Value.int w.spool.content.length = _
  rw [← Sparse.length_bytes, ← hcontent]
  rfl

/-- An upload stores the bytes of the writer, or it fails and changes nothing. -/
theorem upload (hf : backend.Stores view fails) (h : w.Holds key bytes)
    (hsize : w.size = .ok count) (s : σ) :
    ∃ outcome w' s', w.upload.run backend s = (some (outcome, w'), s') ∧
      w'.Holds key bytes ∧ w'.spool.InOrder ∧
      Uploads backend view key bytes s outcome s' := by
  obtain ⟨-, hinOrder, hcontent⟩ := h.size hsize
  have hend := Spool.inOrder_atEnd hinOrder
  have hheld : w.spool.atEnd.Holds bytes bytes.length := Spool.holds_atEnd hinOrder hcontent
  have hcarries := h.carries_uploaded hsize
  have hanswer := hf w.key w.uploaded s
  rcases hput : backend.answer (.put w.key w.uploaded) s with ⟨fault | block, s'⟩
  · -- the request failed
    rw [hput] at hanswer
    refine ⟨_, _, s', upload_of_error hsize hput, ⟨h.key_eq, h.isOpen, hheld⟩, hend, ?_⟩
    rw [h.key_eq] at hput ⊢
    exact .failed hcarries hput (congrArg Bucket.contents hanswer.put_error)
  · -- the store took the upload, and may share the block of the buffer from now on
    rw [hput] at hanswer
    have hstored := Spool.inOrder_stored hend block
    have hplaced : (w.spool.atEnd.stored block).Holds bytes bytes.length := by
      refine .sound hstored ((Spool.bytes_stored block _).trans hcontent) ?_
      rw [Spool.position_stored]
      exact hheld.position_eq
    refine ⟨_, _, s', upload_of_ok hsize hput, ⟨h.key_eq, h.isOpen, hplaced⟩, hstored, ?_⟩
    have hcontents := hanswer.put_ok hcarries.received_eq
    rw [h.key_eq] at hput hcontents
    exact .stored hcarries hput hcontents

/-- A sync uploads the bytes of the writer and leaves it open. -/
theorem sync (hf : backend.Follows view (Bucket.environment fails)) (h : w.Holds key bytes)
    (hsize : w.size = .ok count) (s : σ) :
    ∃ outcome w' s', w.sync.run backend s = (some (outcome, w'), s') ∧
      w'.Holds key bytes ∧ w'.spool.InOrder ∧
      Uploads backend view key bytes s outcome s' := by
  rw [sync_of_isOpen h.isOpen]
  exact h.upload hf.stores hsize s

/-- Closing a writer uploads its bytes. -/
theorem close_of_stores (hf : backend.Stores view fails) (h : w.Holds key bytes)
    (hsize : w.size = .ok count) (s : σ) :
    ∃ outcome w' s', w.close.run backend s = (some (outcome, w'), s') ∧ w'.isClosed = true ∧
      Uploads backend view key bytes s outcome s' := by
  obtain ⟨outcome, w₁, s', hupload, -, hinOrder, huploads⟩ := h.upload hf hsize s
  obtain ⟨w', hrun, hclosed⟩ := run_close h.isOpen hupload hinOrder
  exact ⟨outcome, w', s', hrun, hclosed, huploads⟩

theorem close (hf : backend.Follows view (Bucket.environment fails)) (h : w.Holds key bytes)
    (hsize : w.size = .ok count) (s : σ) :
    ∃ outcome w' s', w.close.run backend s = (some (outcome, w'), s') ∧ w'.isClosed = true ∧
      Uploads backend view key bytes s outcome s' :=
  h.close_of_stores hf.stores hsize s

/-- Aborting a writer closes it. -/
theorem abort (h : w.Holds key bytes) (hsize : w.size = .ok count) :
    ∃ w', w.abort = (.ok (), w') ∧ w'.isClosed = true := by
  obtain ⟨w', hfinish, hclosed⟩ := finish_of_inOrder (h.size hsize).2.1
  refine ⟨w', ?_, hclosed⟩
  unfold Writer.abort
  rw [h.isOpen, if_neg Bool.false_ne_true, hsize]
  exact hfinish

end Holds

end BucketTree.Writer
