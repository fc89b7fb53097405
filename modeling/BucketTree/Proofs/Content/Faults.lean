import BucketTree.Content.Reader
import BucketTree.Proofs.Content.Upload
import BucketTree.Proofs.Contract.Sound
import BucketTree.Proofs.Program.Raises

/-!
# Faults of readers and writers

A reader of a sound store raises known failures only, whatever its stream hands out, except that a
read of more bytes than fit into memory is a misuse. A writer whose buffer is in order raises known
failures only.
-/

set_option autoImplicit false

namespace BucketTree

/-! ## Kinds of faults -/

namespace Fault

/-- The fault is a known failure. -/
def IsKnown (fault : Fault) : Prop := ∃ failure, fault = .known failure

/-- The fault is a known failure and no absence. -/
def IsLoud (fault : Fault) : Prop := ∃ failure, fault = .known failure ∧ failure.isNotFound = false

/-- The fault is a known failure, or `reason` holds and it is a misuse. -/
def IsKnownUnless (reason : Prop) (fault : Fault) : Prop :=
  fault.IsKnown ∨ reason ∧ ∃ misuse, fault = .misuse misuse

variable {fault : Fault} {failure : Failure} {reason : Prop}

theorem isKnown_known (failure : Failure) : (known failure).IsKnown := ⟨failure, rfl⟩

theorem isLoud_known (h : failure.isNotFound = false) : (known failure).IsLoud := ⟨failure, rfl, h⟩

theorem IsLoud.isKnown (h : fault.IsLoud) : fault.IsKnown := by
  obtain ⟨failure, rfl, -⟩ := h
  exact isKnown_known failure

theorem IsLoud.isAbsence_eq_false (h : fault.IsLoud) : fault.isAbsence = false := by
  obtain ⟨failure, rfl, hfailure⟩ := h
  exact hfailure

theorem IsKnown.unless (h : fault.IsKnown) : fault.IsKnownUnless reason := Or.inl h

theorem isKnownUnless_misuse {misuse : Misuse} (h : reason) :
    (Fault.misuse misuse).IsKnownUnless reason :=
  Or.inr ⟨h, misuse, rfl⟩

theorem IsKnownUnless.mono {reason' : Prop} (h : fault.IsKnownUnless reason)
    (hreason : reason → reason') : fault.IsKnownUnless reason' :=
  h.imp_right fun ⟨hr, hmisuse⟩ => ⟨hreason hr, hmisuse⟩

end Fault

/-! ## Readers -/

namespace Stream

theorem closeFault_read (length : Nat) (s : Stream) :
    (s.read length).2.closeFault = s.closeFault := by
  unfold read
  split <;> rfl

theorem closeFault_drain (s : Stream) : s.drain.2.2.closeFault = s.closeFault := by
  unfold drain
  split <;> rfl

/-- A read gives at most as many bytes as requested. -/
theorem length_le_of_read {length : Nat} {s : Stream} {bytes : Bytes}
    (h : (s.read length).1 = .ok bytes) : bytes.length ≤ length := by
  unfold read at h
  split at h
  · cases h
  · revert h
    cases s.pieces with
    | nil =>
        rintro ⟨⟩
        exact Nat.zero_le length
    | cons piece rest =>
        cases piece with
        | error fault => rintro ⟨⟩
        | ok piece =>
            dsimp only [readPieces]
            split
            next hle =>
              rintro ⟨⟩
              exact hle
            next =>
              rintro ⟨⟩
              exact List.length_take_le length piece

end Stream

namespace Reader

/-- The offset of the reader is an integer, and its stream closes without a fault. -/
structure IsSound (r : Reader) : Prop where
  offset : ∃ offset : Int, r.offset = .int offset
  closes : r.stream.closeFault = none

namespace IsSound

variable {r : Reader}

theorem failed (h : r.IsSound) (fault : Fault) : (r.failed fault).IsKnown := by
  obtain ⟨offset, hoffset⟩ := h.offset
  unfold Reader.failed tell
  rw [hoffset]
  exact Fault.isKnown_known _

theorem close (h : r.IsSound) : r.close.1 = .ok () := by
  unfold Reader.close Stream.close
  rw [h.closes]
  split <;> rfl

theorem readAll (h : r.IsSound) :
    r.readAll.2.IsSound ∧ ∀ fault, r.readAll.1 = .error fault → fault.IsKnown := by
  have hclose := r.stream.closeFault_drain
  unfold Reader.readAll
  split
  next heq =>
    rw [heq] at hclose
    exact ⟨⟨h.offset, hclose.trans h.closes⟩, allows_of_ok⟩
  next heq =>
    rw [heq] at hclose
    refine ⟨⟨h.offset, hclose.trans h.closes⟩, ?_⟩
    rintro _ ⟨⟩
    exact h.failed _

theorem readOnce (h : r.IsSound) (length : Nat) : (r.readOnce length).2.IsSound ∧
    ∀ fault, (r.readOnce length).1 = .error fault → fault.IsKnown := by
  have hclose := r.stream.closeFault_read length
  unfold Reader.readOnce
  split
  next heq =>
    rw [heq] at hclose
    exact ⟨⟨h.offset, hclose.trans h.closes⟩, allows_of_ok⟩
  next heq =>
    rw [heq] at hclose
    refine ⟨⟨h.offset, hclose.trans h.closes⟩, ?_⟩
    rintro _ ⟨⟩
    exact h.failed _

/-- A read leaves the reader sound, and raises known failures only unless its size does not fit into
memory. -/
theorem read (h : r.IsSound) {size : Int} (hsize : -1 ≤ size) : (r.read size).2.IsSound ∧
    ∀ fault, (r.read size).1 = .error fault → fault.IsKnownUnless (Word.memoryLimit ≤ size) := by
  unfold Reader.read
  split
  next hfits =>
    have hlarge : Word.memoryLimit ≤ size := by
      rw [Bool.not_eq_true', ← Bool.not_eq_true, Word.fits_iff] at hfits
      unfold Word.bound at hfits
      unfold Word.memoryLimit
      omega
    refine ⟨h, ?_⟩
    rintro _ ⟨⟩
    exact Fault.isKnownUnless_misuse hlarge
  next =>
    split
    next hlarge =>
      refine ⟨h, ?_⟩
      rintro _ ⟨⟩
      exact Fault.isKnownUnless_misuse hlarge
    next =>
      split
      · exact ⟨h.readAll.1, fun fault hfault => (h.readAll.2 fault hfault).unless⟩
      · have hread := h.readOnce size.toNat
        exact ⟨hread.1, fun fault hfault => (hread.2 fault hfault).unless⟩

end IsSound

theorem length_le_of_read {r : Reader} {size : Nat} {bytes : Bytes}
    (h : (r.read size).1 = .ok bytes) : bytes.length ≤ size := by
  have hnat : ¬ (size : Int) < 0 := Int.not_lt.2 (Int.natCast_nonneg size)
  unfold read at h
  rw [if_neg hnat] at h
  split at h
  · cases h
  · split at h
    · cases h
    · unfold readOnce at h
      split at h
      next piece stream heq =>
        cases h
        exact Stream.length_le_of_read (congrArg Prod.fst heq)
      next => cases h

end Reader

/-! ## Writers -/

namespace Writer

variable (w : Writer)

/-- An upload keeps the buffer in order, and raises known failures only if the buffer is in
order. -/
theorem keeps_upload_faults : w.upload.Keeps .sound fun r =>
    (w.spool.InOrder → r.2.spool.InOrder) ∧
      ∀ fault, r.1 = .error fault → fault.IsKnownUnless (¬ w.spool.InOrder) := by
  unfold upload
  split
  next misuse hsize =>
    have hfailed : ¬ w.spool.InOrder := by
      intro hs
      have hmeasured : w.size = .ok w.spool.size := Spool.measure_of_inOrder hs
      rw [hsize] at hmeasured
      cases hmeasured
    refine Program.keeps_pure ⟨id, ?_⟩
    rintro _ ⟨⟩
    exact Fault.isKnownUnless_misuse hfailed
  next =>
    refine (Program.keeps_request trivial).bind fun outcome _ => ?_
    cases outcome with
    | ok block =>
        exact Program.keeps_pure
          ⟨fun hs => Spool.inOrder_stored (Spool.inOrder_atEnd hs) block, allows_of_ok⟩
    | error fault =>
        refine Program.keeps_pure ⟨Spool.inOrder_atEnd, ?_⟩
        rintro _ ⟨⟩
        exact (Fault.isKnown_known _).unless

/-- Closing a writer raises known failures only if its buffer is in order. -/
theorem keeps_close_faults : w.close.Keeps .sound fun r =>
    ∀ fault, r.1 = .error fault → fault.IsKnownUnless (¬ w.spool.InOrder) := by
  unfold close
  split
  · exact Program.keeps_pure allows_of_ok
  · refine w.keeps_upload_faults.bind fun r hr => ?_
    obtain ⟨outcome, w'⟩ := r
    obtain ⟨hinOrder, hfault⟩ := hr
    dsimp only at hinOrder hfault ⊢
    split
    next misuse heq =>
      have hfailed : ¬ w.spool.InOrder := by
        intro hs
        obtain ⟨w'', hfinish, -⟩ := finish_of_inOrder (hinOrder hs)
        rw [heq] at hfinish
        cases hfinish
      refine Program.keeps_pure ?_
      rintro _ ⟨⟩
      exact Fault.isKnownUnless_misuse hfailed
    next => exact Program.keeps_pure hfault

/-- A sync of an open writer raises known failures only if its buffer is in order. -/
theorem keeps_sync_faults : w.sync.Keeps .sound fun r => ∀ fault, r.1 = .error fault →
    fault.IsKnownUnless ¬ (w.isClosed = false ∧ w.spool.InOrder) := by
  unfold sync
  split
  next hclosed =>
    refine Program.keeps_pure ?_
    rintro _ ⟨⟩
    refine Fault.isKnownUnless_misuse ?_
    rintro ⟨hopen, -⟩
    rw [hclosed] at hopen
    cases hopen
  next =>
    exact w.keeps_upload_faults.mono fun r hr fault hfault =>
      (hr.2 fault hfault).mono fun hfailed h => hfailed h.2

end Writer

end BucketTree
