import BucketTree.Proofs.Store.Answers

/-!
# What requests do to a store in memory

Reads leave the objects, the clock and the count of uploads alone (`Memory.Unchanged`). An upload of
a writer carries its bytes and announces their number. The store accepts it when the bytes fit into
memory and the clock shows a valid time (`Memory.put_of_carries`), and then counts it
(`Memory.put_eq_ok`). The memory blocks in which the bytes lie make no difference to the store
(`Upload.LooksLike.put`).
-/

set_option autoImplicit false

namespace BucketTree

/-! ## Stores that were read -/

namespace Memory

variable {m m' : Memory}

/-- The two stores have the same buckets, clock and count of uploads. -/
structure Unchanged (m m' : Memory) : Prop where
  buckets_eq : m'.buckets = m.buckets
  clock_eq : m'.clock = m.clock
  put_eq : m'.count.put = m.count.put

theorem Unchanged.refl (m : Memory) : Unchanged m m := ⟨rfl, rfl, rfl⟩

theorem Unchanged.trans {m'' : Memory} (h : Unchanged m m') (h' : Unchanged m' m'') :
    Unchanged m m'' :=
  ⟨h'.buckets_eq.trans h.buckets_eq, h'.clock_eq.trans h.clock_eq, h'.put_eq.trans h.put_eq⟩

theorem Unchanged.bucket_eq (h : Unchanged m m') (name : String) :
    m'.bucket name = m.bucket name :=
  congrArg (findBucket name) h.buckets_eq

end Memory

/-! ## Uploads of a writer -/

/-- The upload is a stream of the bytes and announces their number. -/
structure Upload.Carries (u : Upload) (bytes : Bytes) : Prop where
  bytes_eq : u.content.bytes = bytes
  isStream_eq : u.isStream = true
  length_eq : u.length = .int bytes.length

namespace Upload.Carries

variable {u : Upload} {bytes : Bytes}

theorem size_eq (h : u.Carries bytes) : u.content.length = bytes.length := by
  rw [← h.bytes_eq, Sparse.length_bytes]

/-- The store receives all bytes of the upload. -/
theorem received_eq (h : u.Carries bytes) : u.received = .ok bytes := by
  have hnonneg : decide ((bytes.length : Int) < 0) = false :=
    decide_eq_false (Int.not_lt.2 (Int.natCast_nonneg _))
  have hlast : decide ((bytes.length : Int) < bytes.length) = false :=
    decide_eq_false (Int.lt_irrefl _)
  unfold Upload.received
  rw [h.isStream_eq, h.length_eq, h.size_eq, h.bytes_eq]
  dsimp only
  rw [Value.isBelow_int, Value.isBelow_int, hnonneg, hlast]
  rfl

end Upload.Carries

namespace Memory

variable {name : String} {key : Key} {bytes : Bytes} {m m' : Memory} {u : Upload}

/-- The store accepts the upload when the bytes fit into memory and the clock shows a valid time. -/
theorem put_of_carries (h : u.Carries bytes) (hroom : (bytes.length : Int) < Word.memoryLimit)
    (hclock : Moment.clockFault? m.clock.now = none) (name : String) (key : Key) :
    ∃ block m', m.put name key u = (.ok block, m') := by
  have hsmall : u.isTooLarge = false := by
    unfold Upload.isTooLarge
    rw [h.size_eq, decide_eq_false (Int.not_le.2 hroom), Bool.and_false]
  have hannounced : u.announces bytes.length = true := by
    unfold Upload.announces
    rw [h.length_eq]
    exact beq_self_eq_true _
  unfold put
  rw [hsmall, if_neg Bool.false_ne_true, h.received_eq]
  dsimp only
  rw [hannounced, if_pos rfl]
  unfold keep
  dsimp only
  rw [hclock]
  exact ⟨_, _, rfl⟩

/-- An accepted upload fits into memory, is counted, and advances the clock. -/
theorem put_eq_ok {block : Option BlockNumber} (h : u.Carries bytes)
    (hput : m.put name key u = (.ok block, m')) :
    (bytes.length : Int) < Word.memoryLimit ∧ m'.count.put = m.count.put + 1 ∧
      m'.clock = { m.clock with now := m.clock.now + m.clock.step } := by
  unfold put at hput
  rw [h.received_eq] at hput
  split at hput
  · cases hput
  next hsmall =>
    have hroom : (bytes.length : Int) < Word.memoryLimit := by
      unfold Upload.isTooLarge at hsmall
      rw [h.isStream_eq, h.size_eq, Bool.true_and, decide_eq_true_iff] at hsmall
      exact Int.not_le.1 hsmall
    dsimp only at hput
    split at hput
    · unfold keep at hput
      dsimp only at hput
      split at hput
      · cases hput
      · cases hput
        exact ⟨hroom, rfl, rfl⟩
    · cases hput

end Memory

/-! ## Uploads that look alike -/

/-- The two uploads differ at most in their memory blocks. -/
structure Upload.LooksLike (u u' : Upload) : Prop where
  bytes_eq : u.content.bytes = u'.content.bytes
  isStream_eq : u.isStream = u'.isStream
  length_eq : u.length = u'.length

/-- The two requests differ at most in the memory blocks of an upload. -/
inductive Request.LooksLike : Request → Request → Prop
  | same (request : Request) : LooksLike request request
  | put {key : Key} {u u' : Upload} (h : u.LooksLike u') : LooksLike (.put key u) (.put key u')

namespace Memory

/-- The two stores have the same clock, and the same contents in the bucket `name`. -/
structure LooksLike (name : String) (m m' : Memory) : Prop where
  clock_eq : m.clock = m'.clock
  contents_eq : (m.bucket name).contents = (m'.bucket name).contents

theorem LooksLike.keep {name : String} {m m' : Memory} (h : m.LooksLike name m') (key : Key)
    (content : Bytes) (block block' : BlockNumber) :
    (m.keep name key content block).1 = (m'.keep name key content block').1 ∧
      (m.keep name key content block).2.LooksLike name (m'.keep name key content block').2 := by
  unfold Memory.keep
  rw [h.clock_eq]
  split
  · exact ⟨rfl, h⟩
  · refine ⟨rfl, ?_, ?_⟩
    · show (⟨m.clock.now + m.clock.step, m.clock.step⟩ : Clock) = _
      rw [h.clock_eq]
      rfl
    · show ((m.setBucket name _).bucket name).contents =
        ((m'.setBucket name _).bucket name).contents
      rw [bucket_setBucket, bucket_setBucket, if_pos rfl, if_pos rfl, Bucket.contents_insert,
        Bucket.contents_insert, h.contents_eq]

end Memory

/-- Uploads that carry the same bytes look alike. -/
theorem Upload.Carries.looksLike {u u' : Upload} {bytes : Bytes} (h : u.Carries bytes)
    (h' : u'.Carries bytes) : u.LooksLike u' :=
  ⟨h.bytes_eq.trans h'.bytes_eq.symm, h.isStream_eq.trans h'.isStream_eq.symm,
    h.length_eq.trans h'.length_eq.symm⟩

namespace Upload.LooksLike

variable {u u' : Upload}

theorem size_eq (h : u.LooksLike u') : u.content.length = u'.content.length := by
  rw [← Sparse.length_bytes, h.bytes_eq, Sparse.length_bytes]

theorem received_eq (h : u.LooksLike u') : u.received = u'.received := by
  have htake : ∀ n, (u.content.take n).bytes = (u'.content.take n).bytes := by
    intro n
    rw [Sparse.bytes_take, Sparse.bytes_take, h.bytes_eq]
  unfold Upload.received
  simp only [h.isStream_eq, h.length_eq, h.size_eq, h.bytes_eq, htake]

theorem isTooLarge_eq (h : u.LooksLike u') : u.isTooLarge = u'.isTooLarge := by
  unfold Upload.isTooLarge
  rw [h.isStream_eq, h.size_eq]

theorem announces_eq (h : u.LooksLike u') (size : Nat) : u.announces size = u'.announces size := by
  unfold Upload.announces
  rw [h.length_eq]

/-- Uploads that look alike have the same outcome on stores that look alike, and leave stores that
look alike. -/
theorem put {name : String} {m m' : Memory} (h : u.LooksLike u') (hm : m.LooksLike name m')
    (key : Key) :
    (m.put name key u).1.map (fun _ => ()) = (m'.put name key u').1.map (fun _ => ()) ∧
      (m.put name key u).2.LooksLike name (m'.put name key u').2 := by
  unfold Memory.put
  rw [h.isTooLarge_eq, h.received_eq]
  split
  · exact ⟨rfl, hm⟩
  · split
    · exact ⟨rfl, hm⟩
    next content hreceived =>
      rw [h.announces_eq, h.length_eq]
      split
      · have hcounted : Memory.LooksLike name
            { m with count := { m.count with put := m.count.put + 1 } }
            { m' with count := { m'.count with put := m'.count.put + 1 } } :=
          ⟨hm.clock_eq, hm.contents_eq⟩
        obtain ⟨houtcome, hmemory⟩ := hcounted.keep key content
          (u.block.getD m.count.put) (u'.block.getD m'.count.put)
        dsimp only
        rw [houtcome]
        refine ⟨?_, hmemory⟩
        rcases (Memory.keep _ _ _ _ _).1 with fault | _ <;> rfl
      · exact ⟨rfl, hm⟩

end Upload.LooksLike

end BucketTree
