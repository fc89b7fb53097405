import BucketTree.Content.Spool

/-!
# Operations of a buffer

A buffer in order behaves as its list of bytes: each operation that it does not refuse is the one on
lists of bytes. A buffer on disk may also accept data that it cannot save; from then on it is stuck.
A stuck buffer is still open and counts these data in its position, and all it does is accept more
data and tell its position.
-/

set_option autoImplicit false

namespace BucketTree.Spool

variable {s s' : Spool}

/-! ## Moving to disk -/

/-- A stuck buffer is a file with data that cannot be saved. -/
theorem place_of_isStuck (h : s.isStuck = true) :
    ∃ isStranded pending, s.place = .file isStranded pending ∧ pending ≠ 0 := by
  unfold isStuck at h
  split at h
  · cases h
  next isStranded pending hplace => exact ⟨isStranded, pending, hplace, bne_iff_ne.1 h⟩

theorem onDisk_of_isStuck (h : s.isStuck = true) : s.onDisk = true := by
  obtain ⟨isStranded, pending, hplace, -⟩ := place_of_isStuck h
  unfold onDisk
  rw [hplace]
  rfl

/-- The buffer is unchanged, or it has moved from memory to disk. -/
inductive MayMove (s : Spool) : Spool → Prop
  | stays : MayMove s s
  | moves (hmemory : s.onDisk = false) : MayMove s { s with place := .file false 0 }

namespace MayMove

theorem position_eq (h : MayMove s s') : s'.position = s.position := by
  cases h with
  | stays => rfl
  | moves => rfl

theorem bytes_eq (h : MayMove s s') : s'.bytes = s.bytes := by
  cases h with
  | stays => rfl
  | moves => rfl

/-- A move keeps the buffer in order. -/
theorem inOrder (h : MayMove s s') (hs : s.InOrder) : s'.InOrder := by
  cases h with
  | stays => exact hs
  | moves => exact ⟨hs.isOpen, rfl⟩

/-- A stuck buffer does not move. -/
theorem eq_of_isStuck (h : MayMove s s') (hstuck : s.isStuck = true) : s' = s := by
  cases h with
  | stays => rfl
  | moves hmemory =>
      rw [onDisk_of_isStuck hstuck] at hmemory
      cases hmemory

end MayMove

/-- A buffer that moves to disk without a fault keeps its bytes. -/
theorem mayMove_of_moveToDisk (h : s.moveToDisk = (.ok (), s')) :
    MayMove s s' := by
  unfold moveToDisk at h
  split at h
  next isStranded pending hplace =>
    split at h
    · cases h
    · cases h
      exact .stays
  next room shared hplace =>
    have hmemory : s.onDisk = false := by
      unfold onDisk
      rw [hplace]
      rfl
    split at h
    · cases h
    · split at h
      · cases h
      · cases h
        exact .moves hmemory

theorem mayMove_of_settle (h : s.settle = (.ok (), s')) : MayMove s s' := by
  unfold settle at h
  split at h
  · exact mayMove_of_moveToDisk h
  · cases h
    exact .stays

/-! ## Writing -/

/-- An open buffer with data that cannot be saved, at the given position. -/
structure IsStuckAt (s : Spool) (position : Nat) : Prop where
  isOpen : s.isOpen = true
  isStuck : s.isStuck = true
  position_eq : s.position = position

/-- The buffer is in order and has these bytes and this position, or it is stuck at this
position. -/
inductive Holds (s : Spool) (bytes : Bytes) (position : Nat) : Prop
  | sound (inOrder : s.InOrder) (bytes_eq : s.bytes = bytes) (position_eq : s.position = position)
  | stuck (h : s.IsStuckAt position)

theorem Holds.mayMove {bytes : Bytes} {position : Nat} (h : s.Holds bytes position)
    (hmove : MayMove s s') : s'.Holds bytes position := by
  cases h with
  | sound inOrder bytes_eq position_eq =>
      exact .sound (hmove.inOrder inOrder) (hmove.bytes_eq.trans bytes_eq)
        (hmove.position_eq.trans position_eq)
  | stuck h =>
      rw [hmove.eq_of_isStuck h.isStuck]
      exact .stuck h

theorem Holds.position_eq {bytes : Bytes} {position : Nat} (h : s.Holds bytes position) :
    s.position = position := by
  cases h with
  | sound inOrder bytes_eq position_eq => exact position_eq
  | stuck h => exact h.position_eq

theorem Holds.isOpen {bytes : Bytes} {position : Nat} (h : s.Holds bytes position) :
    s.isOpen = true := by
  cases h with
  | sound inOrder => exact inOrder.isOpen
  | stuck h => exact h.isOpen

/-- Data that cannot be saved leave the buffer stuck behind them. -/
theorem isStuckAt_withPending {count pending : Nat} (hopen : s.isOpen = true)
    (hdisk : s.onDisk = true) (hpending : pending ≠ 0) :
    (s.withPending count pending).IsStuckAt (s.position + count) := by
  refine ⟨hopen, ?_, rfl⟩
  unfold onDisk at hdisk
  unfold withPending isStuck
  cases hplace : s.place with
  | memory room shared => rw [hplace] at hdisk; cases hdisk
  | file isStranded old => simpa using hpending

/-- Data laid over the bytes of a buffer in order. -/
theorem holds_withData (hs : s.InOrder) (data : Bytes) :
    (s.withData data).Holds (s.bytes.overlay s.position data) (s.position + data.length) := by
  refine .sound ⟨hs.isOpen, ?_⟩ (Sparse.bytes_overlay s.content s.position data) rfl
  exact (SpoolPlace.isSound_written _ _ _).trans hs.isSound

/-- Data beyond the size limit of a file cannot all be saved. -/
theorem writeBehind_eq_ok {data : Bytes} (hdata : data ≠ [])
    (hlimit : Word.diskLimit < s.position + data.length)
    (h : s.writeBehind data = (.ok (), s')) :
    ∃ pending, s' = s.withPending data.length pending ∧ pending ≠ 0 := by
  have hlength := List.length_pos_iff.2 hdata
  unfold writeBehind at h
  generalize hsaved : (if data.length ≤ pendingLimit then 0
    else Word.diskLimit.toNat - s.position) = saved at h
  dsimp only at h
  split at h
  · cases h
    refine ⟨_, rfl, ?_⟩
    unfold Word.diskLimit at hlimit hsaved
    split at hsaved <;> omega
  · cases h

/-- Data written without a move are held, or they leave the buffer stuck. -/
theorem holds_of_writeInPlace {data : Bytes} (hs : s.InOrder) (hdata : data ≠ [])
    (h : s.writeInPlace data = (.ok (), s')) :
    s'.Holds (s.bytes.overlay s.position data) (s.position + data.length) := by
  unfold writeInPlace at h
  split at h
  next room shared hplace =>
    split at h
    · cases h
    · cases h
      exact holds_withData hs data
  next isStranded pending hplace =>
    have hdisk : s.onDisk = true := by
      unfold onDisk
      rw [hplace]
      rfl
    split at h
    next hpending =>
      -- a buffer in good order has taken up nothing so far
      have hsound := hs.isSound
      rw [hplace] at hsound
      simp only [SpoolPlace.isSound, Bool.and_eq_true, beq_iff_eq] at hsound
      rw [hsound.2] at hpending
      cases hpending
    · split at h
      next hlimit =>
        obtain ⟨pending, rfl, hpending⟩ := writeBehind_eq_ok hdata hlimit h
        exact .stuck (isStuckAt_withPending hs.isOpen hdisk hpending)
      · cases h
        exact holds_withData hs data

/-- A write that is not refused lays the data over the bytes at the position. -/
theorem holds_of_write {data : Bytes} (hs : s.InOrder) (h : s.write data = (.ok (), s')) :
    s'.Holds (s.bytes.overlay s.position data) (s.position + data.length) := by
  unfold write at h
  rw [hs.isOpen, Bool.not_true, if_neg Bool.false_ne_true] at h
  split at h
  next hempty =>
    obtain rfl := List.isEmpty_iff.1 hempty
    exact Holds.mayMove (.sound hs rfl rfl) (mayMove_of_settle h)
  next hdata =>
    split at h
    · cases h
    next written hwritten =>
      have hholds := holds_of_writeInPlace hs (fun hnil => hdata (List.isEmpty_iff.2 hnil)) hwritten
      exact hholds.mayMove (mayMove_of_settle h)

/-- A write in memory keeps the buffer in order. -/
theorem inOrder_of_write {data : Bytes} (hs : s.InOrder) (hmemory : s.onDisk = false)
    (h : s.write data = (.ok (), s')) : s'.InOrder := by
  unfold write at h
  rw [hs.isOpen, Bool.not_true, if_neg Bool.false_ne_true] at h
  split at h
  · exact (mayMove_of_settle h).inOrder hs
  · split at h
    · cases h
    next written hwritten =>
      have hdata : written = s.withData data := by
        unfold writeInPlace at hwritten
        split at hwritten
        · split at hwritten
          · cases hwritten
          · cases hwritten
            rfl
        next hplace =>
          unfold onDisk at hmemory
          rw [hplace] at hmemory
          cases hmemory
      have hinOrder : written.InOrder := by
        rw [hdata]
        exact ⟨hs.isOpen, (SpoolPlace.isSound_written _ _ _).trans hs.isSound⟩
      exact (mayMove_of_settle h).inOrder hinOrder

/-! ## A buffer that is stuck -/

namespace IsStuckAt

variable {position : Nat}

/-- A stuck buffer accepts more data or refuses them. -/
theorem write {data : Bytes} (h : s.IsStuckAt position) (hwrite : s.write data = (.ok (), s')) :
    s'.IsStuckAt (position + data.length) := by
  unfold Spool.write at hwrite
  rw [h.isOpen, Bool.not_true, if_neg Bool.false_ne_true] at hwrite
  split at hwrite
  next hempty =>
    obtain rfl := List.isEmpty_iff.1 hempty
    rw [(mayMove_of_settle hwrite).eq_of_isStuck h.isStuck]
    exact h
  next hdata =>
    split at hwrite
    · cases hwrite
    next written hwritten =>
      have hnext : written.IsStuckAt (position + data.length) := by
        obtain ⟨isStranded, pending, hplace, hpending⟩ := place_of_isStuck h.isStuck
        unfold writeInPlace at hwritten
        rw [hplace] at hwritten
        dsimp only at hwritten
        rw [if_pos (bne_iff_ne.2 hpending)] at hwritten
        unfold writeStuck at hwritten
        split at hwritten
        · cases hwritten
          rw [← h.position_eq]
          refine isStuckAt_withPending h.isOpen (onDisk_of_isStuck h.isStuck) ?_
          omega
        · cases hwritten
      rw [(mayMove_of_settle hwrite).eq_of_isStuck hnext.isStuck]
      exact hnext

theorem seek_ne_ok (h : s.IsStuckAt position) (place : Int) : s.seek place ≠ .ok s' := by
  have hrefusal : s.seekRefusal? place ≠ none := by
    unfold seekRefusal?
    rw [onDisk_of_isStuck h.isStuck, h.isOpen, h.isStuck, if_pos rfl, Bool.not_true,
      if_neg Bool.false_ne_true]
    split
    · exact Option.some_ne_none _
    · exact Option.some_ne_none _
  unfold seek
  cases hnone : s.seekRefusal? place with
  | none => exact absurd hnone hrefusal
  | some misuse => nofun

theorem measure_eq (h : s.IsStuckAt position) : s.measure = .error .fileTooLarge := by
  unfold measure tell seekEnd
  rw [h.isOpen, h.isStuck]
  rfl

theorem truncate_ne_ok (h : s.IsStuckAt position) (size : Int) :
    s.truncate size ≠ (.ok (), s') := by
  intro htruncate
  unfold truncate at htruncate
  split at htruncate
  · cases htruncate
  next moved hmoved =>
    have hsame : moved = s := by
      split at hmoved
      · exact (mayMove_of_moveToDisk hmoved).eq_of_isStuck h.isStuck
      · cases hmoved
        rfl
    have hrefusal : s.fileSizeRefusal? size = some .fileTooLarge := by
      unfold fileSizeRefusal?
      rw [h.isOpen, Bool.not_true, if_neg Bool.false_ne_true, h.isStuck, if_pos rfl]
    rw [hsame, onDisk_of_isStuck h.isStuck, if_pos rfl, hrefusal] at htruncate
    cases htruncate

end IsStuckAt

/-! ## Positions and sizes -/

/-- A seek that is not refused sets the position. -/
theorem seek_eq_ok {position : Int} (h : s.seek position = .ok s') :
    s' = { s with position := position.toNat } := by
  unfold seek at h
  split at h
  · cases h
  · cases h
    rfl

/-- A seek to the end is refused by a stuck buffer. -/
theorem seekEnd_eq_ok {bytes : Bytes} {position : Nat} (hs : s.Holds bytes position)
    (h : s.seekEnd = .ok s') : s.InOrder ∧ s.bytes = bytes ∧ s' = s.atEnd := by
  unfold seekEnd at h
  split at h
  · cases h
  next hstuck =>
    cases h
    cases hs with
    | sound inOrder bytes_eq => exact ⟨inOrder, bytes_eq, rfl⟩
    | stuck hs => exact absurd hs.isStuck hstuck

theorem readRefusal?_eq_none {length : Int} {data : Bytes} (h : s.read length = .ok (data, s')) :
    s.readRefusal? length = none := by
  unfold read at h
  split at h
  next => cases h
  next hnone => exact hnone

/-- A read that is not refused gives the bytes at the position. -/
theorem read_eq_ok {length : Nat} {data : Bytes} (h : s.read length = .ok (data, s')) :
    data = (s.bytes.drop s.position).take length ∧
      s' = { s with position := s.position + data.length } := by
  have hnat : ¬ (length : Int) < 0 := Int.not_lt.2 (Int.natCast_nonneg length)
  rw [read_of_readRefusal?_eq_none (readRefusal?_eq_none h)] at h
  dsimp only at h
  rw [if_neg hnat, Int.toNat_natCast] at h
  obtain ⟨hdata, hs'⟩ := Prod.mk.inj (Except.ok.inj h)
  rw [hdata] at hs'
  rw [Sparse.bytes_take, Sparse.bytes_drop] at hdata
  exact ⟨hdata.symm, hs'.symm⟩

/-- A truncation to at most the length that is not refused leaves the first bytes. -/
theorem truncate_eq_ok {size : Nat} (hs : s.InOrder) (hsize : size ≤ s.bytes.length)
    (h : s.truncate size = (.ok (), s')) : s'.InOrder ∧ s'.bytes = s.bytes.take size := by
  have hresize : s.bytes.resize size = s.bytes.take size := by
    unfold Bytes.resize
    rw [Nat.sub_eq_zero_of_le hsize, List.replicate_zero, List.append_nil]
  unfold truncate at h
  split at h
  · cases h
  next moved hmoved =>
    have hmove : MayMove s moved := by
      split at hmoved
      · exact mayMove_of_moveToDisk hmoved
      · cases hmoved
        exact .stays
    have hinOrder := hmove.inOrder hs
    split at h
    · split at h
      · cases h
      · cases h
        refine ⟨⟨hinOrder.isOpen, hinOrder.isSound⟩, ?_⟩
        rw [← hresize, ← hmove.bytes_eq]
        exact Sparse.bytes_resize moved.content size
    · split at h
      · cases h
      · cases h
        refine ⟨⟨hinOrder.isOpen, (SpoolPlace.isSound_cut _ _ _).trans hinOrder.isSound⟩, ?_⟩
        rw [← hmove.bytes_eq]
        exact Sparse.bytes_take size moved.content

/-- A buffer that has moved to disk is on disk. -/
theorem onDisk_of_moveToDisk (h : s.moveToDisk = (.ok (), s')) : s'.onDisk = true := by
  unfold moveToDisk at h
  split at h
  next isStranded pending hplace =>
    have hs' : s' = s := by
      split at h <;> cases h
      rfl
    rw [hs']
    simp [onDisk, hplace, SpoolPlace.isFile]
  next room shared hplace =>
    split at h
    · cases h
    · split at h
      · cases h
      · cases h
        rfl

/-- After a truncation, a buffer is on disk if it was before or if the size exceeds its limit. -/
theorem onDisk_of_truncate {size : Int} (h : s.truncate size = (.ok (), s')) :
    s'.onDisk = (s.onDisk || decide (s.maxSize < size)) := by
  unfold truncate at h
  split at h
  · cases h
  next moved hmoved =>
    have hdisk : moved.onDisk = (s.onDisk || decide (s.maxSize < size)) := by
      split at hmoved
      next hlimit => simp [onDisk_of_moveToDisk hmoved, hlimit]
      next hlimit =>
        cases hmoved
        simp [hlimit]
    rw [← hdisk]
    split at h
    · split at h <;> cases h
      rfl
    · split at h <;> cases h
      exact SpoolPlace.isFile_cut moved.place moved.size size.toNat

end BucketTree.Spool
