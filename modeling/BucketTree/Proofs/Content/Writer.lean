import BucketTree.Proofs.Content.Spool
import BucketTree.Proofs.Store.Answers
import BucketTree.Content.Writer

/-!
# Operations of a writer

A writer holds a list of bytes as long as its buffer refuses nothing: each operation that is not
refused is the one on that list, and leaves the position at the end. An upload stores exactly that
list, or it fails and leaves both the store and the list unchanged.
-/

set_option autoImplicit false

namespace BucketTree

namespace Spool

/-- Data written at the end are appended. -/
theorem Holds.write {s s' : Spool} {bytes data : Bytes} (h : s.Holds bytes bytes.length)
    (hwrite : s.write data = (.ok (), s')) : s'.Holds (bytes ++ data) (bytes ++ data).length := by
  rw [List.length_append]
  cases h with
  | sound inOrder bytes_eq position_eq =>
      have hholds := holds_of_write inOrder hwrite
      rwa [bytes_eq, position_eq, Bytes.overlay_length] at hholds
  | stuck h => exact .stuck (h.write hwrite)

/-- A buffer in order that was moved to its end. -/
theorem holds_atEnd {s : Spool} {bytes : Bytes} (hs : s.InOrder) (hbytes : s.bytes = bytes) :
    s.atEnd.Holds bytes bytes.length := by
  refine .sound (inOrder_atEnd hs) hbytes ?_
  rw [← hbytes]
  exact (Sparse.length_bytes s.content).symm

/-- Giving the block of a buffer another holder keeps the buffer in order. -/
theorem inOrder_stored {s : Spool} (hs : s.InOrder) (block : Option BlockNumber) :
    (s.stored block).InOrder := by
  unfold stored
  split
  · split
    · exact ⟨hs.isOpen, rfl⟩
    · exact hs
  · exact hs

theorem position_stored (s : Spool) (block : Option BlockNumber) :
    (s.stored block).position = s.position := by
  unfold stored
  split
  · split <;> rfl
  · rfl

theorem inOrder_unshared {s : Spool} (hs : s.InOrder) : s.unshared.InOrder := by
  unfold unshared
  split
  · exact ⟨hs.isOpen, rfl⟩
  · exact hs

theorem position_unshared (s : Spool) : s.unshared.position = s.position := by
  unfold unshared
  split <;> rfl

end Spool

namespace Writer

/-! ## The key of a writer -/

section Keys

variable (w : Writer)

theorem key_whileOpen {α : Type} {action : WriterAction} {body : Except Misuse α × Writer}
    (h : body.2.key = w.key) : (whileOpen action w body).2.key = w.key := by
  unfold whileOpen
  split
  · rfl
  · exact h

theorem key_write (data : Bytes) : (w.write data).2.key = w.key := w.key_whileOpen rfl

theorem key_writeAt (data : Bytes) (offset : Int) : (w.writeAt data offset).2.key = w.key := by
  apply key_whileOpen
  split
  · rfl
  · split
    · rfl
    · split <;> rfl

theorem key_readAt (offset size : Int) : (w.readAt offset size).2.key = w.key := by
  apply key_whileOpen
  split
  · rfl
  · split <;> rfl

theorem key_truncate (size : Option Int) : (w.truncate size).2.key = w.key := by
  unfold truncate
  split
  · rfl
  · split <;> rfl

theorem key_reclaim (isHeld : BlockNumber → Bool) : (w.reclaim isHeld).key = w.key := by
  unfold reclaim
  split
  · rfl
  · split <;> rfl

theorem key_finish : w.finish.2.key = w.key := by
  unfold finish
  split <;> rfl

theorem key_abort : w.abort.2.key = w.key := by
  unfold abort
  split
  · rfl
  · split
    · rfl
    · exact w.key_finish

theorem key_discardFor (fault : Fault) : (w.discardFor fault).2.key = w.key := by
  have habort := w.key_abort
  unfold discardFor
  split
  next heq => rwa [heq] at habort
  next heq => rwa [heq] at habort

theorem key_writeAll (items : List Bytes) : (w.writeAll items).2.key = w.key := by
  induction items generalizing w with
  | nil => rfl
  | cons data rest ih =>
      have hwrite := w.key_write data
      unfold writeAll
      split
      next heq => rwa [heq] at hwrite
      next heq =>
        rw [heq] at hwrite
        exact (ih _).trans hwrite

end Keys

/-! ## Operations -/

/-- The writer is open, and its buffer holds the bytes with the position at the end. -/
structure Holds (w : Writer) (key : Key) (bytes : Bytes) : Prop where
  key_eq : w.key = key
  isOpen : w.isClosed = false
  buffer : w.spool.Holds bytes bytes.length

theorem whileOpen_of_isOpen {α : Type} {action : WriterAction} {w : Writer}
    (h : w.isClosed = false) (body : Except Misuse α × Writer) :
    whileOpen action w body = body := by
  unfold whileOpen
  rw [h, if_neg Bool.false_ne_true]

/-- The program `writeAt` seeks, writes, and seeks to the end. -/
theorem writeAt_eq_ok {w w' : Writer} {data : Bytes} {offset : Int} {count : Nat}
    (hopen : w.isClosed = false) : w.writeAt data offset = (.ok count, w') ↔
      count = data.length ∧ ∃ sought written spool, w.spool.seek offset = .ok sought ∧
        sought.write data = (.ok (), written) ∧ written.seekEnd = .ok spool ∧
        w' = { w with spool := spool } := by
  unfold writeAt
  rw [whileOpen_of_isOpen hopen]
  constructor
  · intro h
    split at h
    · cases h
    next sought hseek =>
      split at h
      · cases h
      next written hwrite =>
        split at h
        · cases h
        next spool hend =>
          cases h
          exact ⟨rfl, sought, written, spool, hseek, hwrite, hend, rfl⟩
  · rintro ⟨rfl, sought, written, spool, hseek, hwrite, hend, rfl⟩
    simp only [hseek, hwrite, hend]

/-- The program `readAt` seeks, reads, and seeks to the end. -/
theorem readAt_eq_ok {w w' : Writer} {data : Bytes} {offset size : Int}
    (hopen : w.isClosed = false) : w.readAt offset size = (.ok data, w') ↔
      ∃ sought spool, w.spool.seek offset = .ok sought ∧ sought.read size = .ok (data, spool) ∧
        w' = { w with spool := spool.atEnd } := by
  unfold readAt
  rw [whileOpen_of_isOpen hopen]
  constructor
  · intro h
    split at h
    · cases h
    next sought hseek =>
      split at h
      · cases h
      next spool hread =>
        cases h
        exact ⟨sought, spool, hseek, hread, rfl⟩
  · rintro ⟨sought, spool, hseek, hread, rfl⟩
    simp only [hseek, hread]

theorem truncate_eq_ok {w w' : Writer} {size : Option Int} {told : Int}
    (h : w.truncate size = (.ok told, w')) :
    ∃ spool, size.elim (w.tell.map Int.ofNat) .ok = .ok told ∧
      w.spool.truncate told = (.ok (), spool) ∧ w' = { w with spool := spool.atEnd } := by
  unfold truncate at h
  split at h
  · cases h
  next hsize =>
    split at h
    · cases h
    next spool htruncate =>
      cases h
      exact ⟨spool, hsize, htruncate, rfl⟩

/-- A new writer holds the data that its buffer accepted. -/
theorem holds_start (key : Key) {data : Bytes} {maxSize : Int}
    (h : ((Spool.empty maxSize).write data).1 = .ok ()) : (start key data maxSize).Holds key data ∧
      (start key data maxSize).spool.InOrder := by
  have hempty := Spool.inOrder_empty maxSize
  unfold start
  dsimp only
  split
  next hnil =>
    obtain rfl := List.isEmpty_iff.1 hnil
    exact ⟨⟨rfl, rfl, .sound hempty rfl rfl⟩, hempty⟩
  next =>
    rcases hwrite : (Spool.empty maxSize).write data with ⟨outcome, spool⟩
    rw [hwrite] at h
    obtain rfl : outcome = .ok () := h
    have hholds : spool.Holds ([] ++ data) ([] ++ data).length :=
      Spool.Holds.write (.sound hempty rfl rfl) hwrite
    exact ⟨⟨rfl, rfl, hholds⟩, Spool.inOrder_of_write hempty rfl hwrite⟩

namespace Holds

variable {w w' : Writer} {key : Key} {bytes data : Bytes}

theorem write {count : Nat} (h : w.Holds key bytes) (hwrite : w.write data = (.ok count, w')) :
    count = data.length ∧ w'.Holds key (bytes ++ data) := by
  have hkey := w.key_write data
  rw [hwrite] at hkey
  unfold Writer.write at hwrite
  rw [whileOpen_of_isOpen h.isOpen] at hwrite
  rcases hspool : w.spool.write data with ⟨_ | _, spool⟩
  · rw [hspool] at hwrite
    cases hwrite
  · rw [hspool] at hwrite
    cases hwrite
    exact ⟨rfl, hkey.trans h.key_eq, h.isOpen, h.buffer.write hspool⟩

/-- A buffer that accepts a seek is in order. -/
theorem seek {position : Nat} {spool : Spool} (h : w.Holds key bytes)
    (hseek : w.spool.seek position = .ok spool) :
    spool.InOrder ∧ spool.bytes = bytes ∧ spool.position = position := by
  cases h.buffer with
  | sound inOrder bytes_eq =>
      rw [Spool.seek_eq_ok hseek]
      exact ⟨⟨inOrder.isOpen, inOrder.isSound⟩, bytes_eq, rfl⟩
  | stuck hstuck => exact absurd hseek (hstuck.seek_ne_ok _)

/-- Data written at an offset are laid over the bytes there. -/
theorem writeAt {offset count : Nat} (h : w.Holds key bytes)
    (hwrite : w.writeAt data offset = (.ok count, w')) :
    count = data.length ∧ w'.Holds key (bytes.overlay offset data) ∧ w'.spool.InOrder := by
  obtain ⟨rfl, sought, written, spool, hseek, hspool, hend, rfl⟩ :=
    (writeAt_eq_ok h.isOpen).1 hwrite
  obtain ⟨hsought, hbytes, hposition⟩ := h.seek hseek
  have hwritten := Spool.holds_of_write hsought hspool
  rw [hbytes, hposition] at hwritten
  -- the buffer went to its end, so it is not stuck
  obtain ⟨hinOrder, hoverlay, rfl⟩ := Spool.seekEnd_eq_ok hwritten hend
  exact ⟨rfl, ⟨h.key_eq, h.isOpen, Spool.holds_atEnd hinOrder hoverlay⟩,
    Spool.inOrder_atEnd hinOrder⟩

/-- A read gives the bytes at the offset. -/
theorem readAt {offset size : Nat} (h : w.Holds key bytes)
    (hread : w.readAt offset size = (.ok data, w')) :
    data = (bytes.drop offset).take size ∧ w'.Holds key bytes ∧ w'.spool.InOrder := by
  obtain ⟨sought, spool, hseek, hspool, rfl⟩ := (readAt_eq_ok h.isOpen).1 hread
  obtain ⟨hsought, hbytes, hposition⟩ := h.seek hseek
  obtain ⟨hdata, rfl⟩ := Spool.read_eq_ok hspool
  rw [hbytes, hposition] at hdata
  have hinOrder : ({ sought with position := sought.position + data.length } : Spool).InOrder :=
    ⟨hsought.isOpen, hsought.isSound⟩
  exact ⟨hdata, ⟨h.key_eq, h.isOpen, Spool.holds_atEnd hinOrder hbytes⟩,
    Spool.inOrder_atEnd hinOrder⟩

/-- The position is at the end. -/
theorem tell (h : w.Holds key bytes) : w.tell = .ok bytes.length := by
  unfold Writer.tell Spool.tell
  rw [h.buffer.isOpen, if_pos rfl, h.buffer.position_eq]

/-- Without a size, a truncation is to the position, which is at the end. -/
theorem asked {size : Option Nat} (h : w.Holds key bytes) :
    (size.map Int.ofNat).elim (w.tell.map Int.ofNat) .ok =
      .ok ((size.getD bytes.length : Nat) : Int) := by
  rw [h.tell]
  cases size with
  | none => rfl
  | some n => rfl

/-- A buffer that tells its size is in order, and the size is the length of the list. -/
theorem size {count : Nat} (h : w.Holds key bytes) (hsize : w.size = .ok count) :
    count = bytes.length ∧ w.spool.InOrder ∧ w.content = bytes := by
  unfold Writer.size at hsize
  cases h.buffer with
  | sound inOrder bytes_eq =>
      rw [Spool.measure_of_inOrder inOrder] at hsize
      cases hsize
      refine ⟨?_, inOrder, bytes_eq⟩
      rw [← bytes_eq]
      exact (Sparse.length_bytes _).symm
  | stuck hstuck =>
      rw [hstuck.measure_eq] at hsize
      cases hsize

/-- A buffer in order tells its size. -/
theorem size_of_inOrder (h : w.Holds key bytes) (hs : w.spool.InOrder) :
    w.size = .ok bytes.length := by
  have hsize : w.size = .ok w.spool.size := Spool.measure_of_inOrder hs
  rw [hsize, (h.size hsize).1]

/-- A truncation leaves the first bytes. -/
theorem truncate {size : Option Nat} {told : Int} (h : w.Holds key bytes)
    (hlegal : ∀ n ∈ size, n ≤ bytes.length)
    (htruncate : w.truncate (size.map Int.ofNat) = (.ok told, w')) :
    told = size.getD bytes.length ∧ w'.Holds key (bytes.take (size.getD bytes.length)) ∧
      w'.spool.InOrder := by
  obtain ⟨spool, htold, hspool, rfl⟩ := truncate_eq_ok htruncate
  rw [h.asked] at htold
  obtain rfl := Except.ok.inj htold
  have hle : size.getD bytes.length ≤ bytes.length := by
    cases size with
    | none => exact Nat.le_refl _
    | some n => exact hlegal n rfl
  cases h.buffer with
  | sound inOrder bytes_eq =>
      rw [← bytes_eq] at hle
      obtain ⟨hinOrder, hbytes⟩ := Spool.truncate_eq_ok inOrder (bytes_eq ▸ hle) hspool
      rw [bytes_eq] at hbytes
      exact ⟨rfl, ⟨h.key_eq, h.isOpen, Spool.holds_atEnd hinOrder hbytes⟩,
        Spool.inOrder_atEnd hinOrder⟩
  | stuck hstuck => exact absurd hspool (hstuck.truncate_ne_ok _)

/-- Reclaiming the block of the buffer keeps its bytes. -/
theorem reclaim (h : w.Holds key bytes) (hs : w.spool.InOrder) (isHeld : BlockNumber → Bool) :
    (w.reclaim isHeld).Holds key bytes ∧ (w.reclaim isHeld).spool.InOrder := by
  unfold Writer.reclaim
  split
  · exact ⟨h, hs⟩
  · split
    · exact ⟨h, hs⟩
    · have hunshared := Spool.inOrder_unshared hs
      refine ⟨⟨h.key_eq, h.isOpen, ?_⟩, hunshared⟩
      cases h.buffer with
      | sound inOrder bytes_eq position_eq =>
          refine .sound hunshared ((Spool.bytes_unshared _).trans bytes_eq) ?_
          rw [Spool.position_unshared]
          exact position_eq
      | stuck hstuck =>
          -- a buffer in good order is not stuck
          have hsound := Spool.not_isStuck_of_inOrder hs
          rw [hstuck.isStuck] at hsound
          cases hsound

end Holds

/-! ## Room -/

/-- The writer holds the bytes, its buffer is in order, and they fit into memory. -/
structure HasRoom (w : Writer) (key : Key) (bytes : Bytes) : Prop where
  holds : w.Holds key bytes
  inOrder : w.spool.InOrder
  room : (bytes.length : Int) < Word.memoryLimit

/-- An empty buffer accepts data that fit into memory. -/
theorem start_of_room {data : Bytes} (maxSize : Int) (h : (data.length : Int) < Word.memoryLimit) :
    ((Spool.empty maxSize).write data).1 = .ok () := by
  have hreach :
      (((Spool.empty maxSize).position : Nat) : Int) + data.length < Word.memoryLimit := by
    simpa [Spool.empty] using h
  obtain ⟨s, hwrite, -⟩ := Spool.write_of_room (Spool.inOrder_empty maxSize) hreach
  rw [hwrite]

namespace HasRoom

variable {w : Writer} {key : Key} {bytes : Bytes}

theorem diskRoom (h : w.HasRoom key bytes) : (bytes.length : Int) ≤ Word.diskLimit :=
  Int.le_trans (Int.le_of_lt h.room) (by decide)

theorem position_eq (h : w.HasRoom key bytes) : w.spool.position = bytes.length :=
  h.holds.buffer.position_eq

theorem size (h : w.HasRoom key bytes) : w.size = .ok bytes.length :=
  h.holds.size_of_inOrder h.inOrder

theorem write {data : Bytes} (h : w.HasRoom key bytes)
    (hroom : (bytes.length + data.length : Int) < Word.memoryLimit) :
    ∃ w', w.write data = (.ok data.length, w') ∧ w'.HasRoom key (bytes ++ data) := by
  have hreach : (w.spool.position + data.length : Int) < Word.memoryLimit := by
    rw [h.position_eq]
    exact hroom
  obtain ⟨spool, hspool, hinOrder, -⟩ := Spool.write_of_room h.inOrder hreach
  have hwrite : w.write data = (.ok data.length, { w with spool := spool }) := by
    unfold Writer.write
    rw [whileOpen_of_isOpen h.holds.isOpen, hspool]
    rfl
  refine ⟨_, hwrite, (h.holds.write hwrite).2, hinOrder, ?_⟩
  rw [List.length_append]
  exact hroom

theorem writeAt {data : Bytes} {offset : Nat} (h : w.HasRoom key bytes)
    (hroom : (offset + data.length : Int) < Word.memoryLimit) :
    ∃ w', w.writeAt data offset = (.ok data.length, w') ∧
      w'.HasRoom key (bytes.overlay offset data) := by
  have hoffset : (offset : Int) ≤ Word.diskLimit := by
    unfold Word.memoryLimit at hroom
    unfold Word.diskLimit
    omega
  have hsought : ({ w.spool with position := offset } : Spool).InOrder :=
    ⟨h.inOrder.isOpen, h.inOrder.isSound⟩
  have hreach : (({ w.spool with position := offset } : Spool).position + data.length : Int) <
      Word.memoryLimit := hroom
  obtain ⟨spool, hspool, hinOrder, -⟩ := Spool.write_of_room hsought hreach
  have hwrite : w.writeAt data offset = (.ok data.length, { w with spool := spool.atEnd }) :=
    (writeAt_eq_ok h.holds.isOpen).2 ⟨rfl, _, spool, _, Spool.seek_of_room h.inOrder hoffset,
      hspool, Spool.seekEnd_of_inOrder hinOrder, rfl⟩
  obtain ⟨-, hholds, hinOrder⟩ := h.holds.writeAt hwrite
  refine ⟨_, hwrite, hholds, hinOrder, ?_⟩
  have hlength := h.room
  rw [Bytes.length_overlay]
  split <;> omega

theorem readAt {offset size : Nat} (h : w.HasRoom key bytes)
    (hoffset : (offset : Int) < Word.memoryLimit) (hsize : (size : Int) < Word.memoryLimit) :
    ∃ w', w.readAt offset size = (.ok ((bytes.drop offset).take size), w') ∧
      w'.HasRoom key bytes := by
  have hdisk : (offset : Int) ≤ Word.diskLimit := Int.le_trans (Int.le_of_lt hoffset) (by decide)
  have hsought : ({ w.spool with position := offset } : Spool).InOrder :=
    ⟨h.inOrder.isOpen, h.inOrder.isSound⟩
  have hread := (readAt_eq_ok h.holds.isOpen).2 ⟨_, _, Spool.seek_of_room h.inOrder hdisk,
    Spool.read_of_room hsought hsize, rfl⟩
  obtain ⟨hdata, hholds, hinOrder⟩ := h.holds.readAt hread
  rw [hdata] at hread
  exact ⟨_, hread, hholds, hinOrder, h.room⟩

theorem truncate {size : Option Nat} (h : w.HasRoom key bytes)
    (hlegal : ∀ n ∈ size, n ≤ bytes.length) :
    ∃ w', w.truncate (size.map Int.ofNat) = (.ok (size.getD bytes.length : Nat), w') ∧
      w'.HasRoom key (bytes.take (size.getD bytes.length)) := by
  have hle : size.getD bytes.length ≤ bytes.length := by
    cases size with
    | none => exact Nat.le_refl _
    | some n => exact hlegal n rfl
  have hdisk : ((size.getD bytes.length : Nat) : Int) ≤ Word.diskLimit :=
    Int.le_trans (Int.ofNat_le.2 hle) h.diskRoom
  obtain ⟨spool, hspool, -⟩ := Spool.truncate_of_room h.inOrder
    (by rw [h.position_eq]; exact h.diskRoom) (Int.natCast_nonneg _) hdisk
  have htruncate : w.truncate (size.map Int.ofNat) =
      (.ok (size.getD bytes.length : Nat), { w with spool := spool.atEnd }) := by
    unfold Writer.truncate
    rw [h.holds.asked]
    dsimp only
    rw [hspool]
  obtain ⟨-, hholds, hinOrder⟩ := h.holds.truncate hlegal htruncate
  refine ⟨_, htruncate, hholds, hinOrder, ?_⟩
  have hroom := h.room
  rw [List.length_take]
  omega

end HasRoom

end Writer

end BucketTree
