import BucketTree.Proofs.Content.Pieces
import BucketTree.Proofs.Store.Answers

/-!
# Stores that hand out objects in pieces

A store may hand out the range of an object in pieces, as they arrive over a network
(`Bucket.piecewise`). The stream is then over the bytes of the range, and the store decides how many
of them a single read gives. Such a stream may also fail midway (`Bucket.breakable`).
-/

set_option autoImplicit false

namespace BucketTree

/-- The bytes of an object from an offset on. -/
theorem StoredObject.bytes_suffix (object : StoredObject) (offset : Nat) :
    (object.body.suffix offset).bytes = object.content.drop offset := by
  show object.content.drop (if (offset : Int) < 0 then _ else (offset : Int).toNat) = _
  rw [if_neg (Int.not_lt.2 (Int.natCast_nonneg offset)), Int.toNat_natCast]

namespace Bucket

/-- The predicate `Answers` for a store that hands out the range of an object in pieces of its
choice. -/
inductive PiecewiseAnswers (fails : Request → Fault → Prop) :
    (request : Request) → Bucket → Except Fault request.Answer → Bucket → Prop
  /-- An answer of `Answers`. -/
  | whole {request : Request} {b b' : Bucket} {outcome : Except Fault request.Answer}
      (h : Answers fails request b outcome b') : PiecewiseAnswers fails request b outcome b'
  /-- The range of an object is handed out in pieces. -/
  | pieces {b : Bucket} {key : Key} {offset : Value} {object : StoredObject} {start : Int}
      {stream : Stream} (hkey : b.find? key = some object) (hstart : offset.startPoint = .ok start)
      (hstream : stream.HandsOut (object.body.suffix start).bytes) :
      PiecewiseAnswers fails (.openRange key offset) b (.ok stream) b

/-- The environment of one bucket whose ranges may be handed out in pieces. -/
def piecewise (fails : Request → Fault → Prop) : Environment Bucket :=
  ⟨PiecewiseAnswers fails, fun _ _ _ => True⟩

namespace PiecewiseAnswers

variable {fails : Request → Fault → Prop} {b b' : Bucket} {key : Key}

/-- For uploads, `PiecewiseAnswers` is `Answers`. -/
theorem put {upload : Upload} {outcome : Except Fault (Option BlockNumber)}
    (h : PiecewiseAnswers fails (.put key upload) b outcome b') :
    Answers fails (.put key upload) b outcome b' := by
  cases h with
  | whole h => exact h

/-- A stream opened at an offset is over the bytes of the object from there on. -/
theorem openRange {offset : Nat} {stream : Stream}
    (h : PiecewiseAnswers fails (.openRange key (.int offset)) b (.ok stream) b') :
    b' = b ∧ ∃ bytes, b.contents key = some bytes ∧ stream.HandsOut (bytes.drop offset) := by
  generalize houtcome : (Except.ok stream : Except Fault Stream) = outcome at h
  cases h with
  | whole h =>
      cases h with
      | failed hfault => cases houtcome
      | absent hneeds hkey => cases houtcome
      | @openRange _ _ _ object hkey =>
          rw [Stream.ofBodyFrom_int] at houtcome
          cases houtcome
          refine ⟨rfl, _, contents_of_find? hkey, ?_⟩
          rw [← StoredObject.bytes_suffix]
          exact Stream.handsOut_ofBody _
  | @pieces _ _ _ object start _ hkey hstart hstream =>
      cases houtcome
      cases hstart
      rw [StoredObject.bytes_suffix] at hstream
      exact ⟨rfl, _, contents_of_find? hkey, hstream⟩

end PiecewiseAnswers

end Bucket

theorem Backend.Follows.stores_of_piecewise {σ : Type} {backend : Backend σ} {view : σ → Bucket}
    {fails : Request → Fault → Prop} (h : backend.Follows view (Bucket.piecewise fails)) :
    backend.Stores view fails :=
  fun key upload s => (h.answer (.put key upload) s).put

namespace Memory

/-- The store in memory with streams that give one byte at each read. -/
def byteByByte (name : String) : Backend Memory where
  answer
    | .openRange key offset, m =>
        let (outcome, m) := m.get name key
        (outcome.bind fun body =>
          (offset.startPoint.map fun n => Stream.oneByOne (body.suffix n)).mapError .misuse, m)
    | request, m => m.answer name request
  isCancelled _ _ := false

/-- The range of an object in memory as a stream that `cut` makes of its body. -/
def cutRange (cut : Body → Stream) (name : String) (key : Key) (offset : Value) (m : Memory) :
    Except Fault Stream :=
  (m.get name key).1.bind fun body =>
    (offset.startPoint.map fun n => cut (body.suffix n)).mapError .misuse

/-- The program `cutRange` gives a stream over the range, or it fails as the store in memory
does. -/
theorem cutRange_cases (cut : Body → Stream) (name : String) (key : Key) (offset : Value)
    (m : Memory) :
    (∃ object start, (m.bucket name).find? key = some object ∧ offset.startPoint = .ok start ∧
      cutRange cut name key offset m = .ok (cut (object.body.suffix start))) ∨
    Bucket.Answers refuses (.openRange key offset) (m.bucket name) (cutRange cut name key offset m)
      (m.bucket name) := by
  unfold cutRange get
  dsimp only
  obtain ⟨object, hkey, hlookup⟩ | ⟨hkey, hlookup⟩ := lookup_eq name key m
  · rw [hlookup]
    cases hstart : offset.startPoint with
    | ok start => exact Or.inl ⟨object, start, hkey, rfl, rfl⟩
    | error misuse =>
        have hrefused : Stream.ofBodyFrom offset object.body = .error (.misuse misuse) := by
          unfold Stream.ofBodyFrom
          rw [hstart]
          rfl
        have hanswer : Bucket.Answers refuses (.openRange key offset) (m.bucket name)
            (Stream.ofBodyFrom offset object.body) (m.bucket name) := .openRange hkey
        rw [hrefused] at hanswer
        exact Or.inr hanswer
  · rw [hlookup]
    exact Or.inr (.absent rfl hkey)

theorem byteByByte_follows (name : String) :
    (byteByByte name).Follows (Memory.bucket name) (Bucket.piecewise refuses) := by
  have hwhole := Memory.backend_follows name
  refine ⟨?_, fun _ _ => trivial⟩
  intro request m
  cases request with
  | openRange key offset =>
      show Bucket.PiecewiseAnswers refuses (.openRange key offset) (m.bucket name)
        (cutRange Stream.oneByOne name key offset m) (m.bucket name)
      obtain ⟨object, start, hkey, hstart, hcut⟩ | hanswer :=
        cutRange_cases Stream.oneByOne name key offset m
      · rw [hcut]
        exact .pieces hkey hstart (Stream.handsOut_oneByOne _)
      · exact .whole hanswer
  | head key => exact .whole (hwhole.answer (.head key) m)
  | get key => exact .whole (hwhole.answer (.get key) m)
  | put key upload => exact .whole (hwhole.answer (.put key upload) m)
  | delete key => exact .whole (hwhole.answer (.delete key) m)
  | copy source destination => exact .whole (hwhole.answer (.copy source destination) m)
  | list request => exact .whole (hwhole.answer (.list request) m)

end Memory

/-! ## Ranges that break off -/

namespace Bucket

/-- The predicate `PiecewiseAnswers` for a store whose streams may fail midway. -/
inductive BreakableAnswers (fails : Request → Fault → Prop) :
    (request : Request) → Bucket → Except Fault request.Answer → Bucket → Prop
  /-- An answer of `PiecewiseAnswers`. -/
  | steady {request : Request} {b b' : Bucket} {outcome : Except Fault request.Answer}
      (h : PiecewiseAnswers fails request b outcome b') :
      BreakableAnswers fails request b outcome b'
  /-- The stream over the range of an object fails midway. -/
  | breaking {b : Bucket} {key : Key} {offset : Value} {object : StoredObject} {start : Int}
      {stream : Stream} (hkey : b.find? key = some object) (hstart : offset.startPoint = .ok start)
      (hstream : stream.BreaksOff (object.body.suffix start).bytes) :
      BreakableAnswers fails (.openRange key offset) b (.ok stream) b

/-- The environment of one bucket whose ranges may be handed out in pieces, by streams that may fail
midway. -/
def breakable (fails : Request → Fault → Prop) : Environment Bucket :=
  ⟨BreakableAnswers fails, fun _ _ _ => True⟩

namespace BreakableAnswers

variable {fails : Request → Fault → Prop} {b b' : Bucket} {key : Key}

/-- For every request but `openRange`, `BreakableAnswers` is `Answers`. -/
theorem of_not_range {request : Request} {outcome : Except Fault request.Answer}
    (h : BreakableAnswers fails request b outcome b')
    (hrequest : ∀ key offset, request ≠ .openRange key offset) :
    Answers fails request b outcome b' := by
  cases h with
  | steady h =>
      cases h with
      | whole h => exact h
      | @pieces _ key offset => exact absurd rfl (hrequest key offset)
  | @breaking _ key offset => exact absurd rfl (hrequest key offset)

/-- The three outcomes of opening an existing object from its start: an admitted fault, a stream
over its bytes, and a stream that fails midway. -/
theorem openRange {bytes : Bytes} {outcome : Except Fault Stream}
    (h : BreakableAnswers fails (.openRange key (.int 0)) b outcome b')
    (hcontents : b.contents key = some bytes) :
    b' = b ∧ ((∃ fault, outcome = .error fault ∧ fails (.openRange key (.int 0)) fault) ∨
      ∃ stream, outcome = .ok stream ∧ (stream.HandsOut bytes ∨ stream.BreaksOff bytes)) := by
  have hwhole : ∀ object : StoredObject, b.find? key = some object →
      (object.body.suffix 0).bytes = bytes := by
    intro object hkey
    rw [contents_of_find? hkey] at hcontents
    rw [Body.suffix_zero]
    exact Option.some.inj hcontents
  cases h with
  | steady h =>
      cases h with
      | whole h =>
          cases h with
          | failed hfault => exact ⟨rfl, Or.inl ⟨_, rfl, hfault⟩⟩
          | absent hneeds hkey =>
              cases hneeds
              rw [contents_eq_none.2 hkey] at hcontents
              cases hcontents
          | @openRange _ _ _ object hkey =>
              refine ⟨rfl, Or.inr ⟨_, Stream.ofBodyFrom_int 0 object.body, Or.inl ?_⟩⟩
              exact hwhole object hkey ▸ Stream.handsOut_ofBody _
      | pieces hkey hstart hstream =>
          cases hstart
          exact ⟨rfl, Or.inr ⟨_, rfl, Or.inl (hwhole _ hkey ▸ hstream)⟩⟩
  | breaking hkey hstart hstream =>
      cases hstart
      exact ⟨rfl, Or.inr ⟨_, rfl, Or.inr (hwhole _ hkey ▸ hstream)⟩⟩

end BreakableAnswers

end Bucket

theorem Backend.Follows.stores_of_breakable {σ : Type} {backend : Backend σ} {view : σ → Bucket}
    {fails : Request → Fault → Prop} (h : backend.Follows view (Bucket.breakable fails)) :
    backend.Stores view fails :=
  fun key upload s => (h.answer (.put key upload) s).of_not_range nofun

/-- A backend that follows `piecewise` follows `breakable`. -/
theorem Backend.Follows.breakable {σ : Type} {backend : Backend σ} {view : σ → Bucket}
    {fails : Request → Fault → Prop} (h : backend.Follows view (Bucket.piecewise fails)) :
    backend.Follows view (Bucket.breakable fails) :=
  ⟨fun request s => .steady (h.answer request s), fun _ _ => trivial⟩

namespace Memory

/-- The store in memory with streams that fail after `count` bytes. -/
def failingAt (count : Nat) (name : String) : Backend Memory where
  answer
    | .openRange key offset, m => (cutRange (Stream.failingAt count) name key offset m,
        (m.get name key).2)
    | request, m => m.answer name request
  isCancelled _ _ := false

theorem failingAt_follows (count : Nat) (name : String) :
    (failingAt count name).Follows (Memory.bucket name) (Bucket.breakable refuses) := by
  have hwhole := Memory.backend_follows name
  refine ⟨?_, fun _ _ => trivial⟩
  intro request m
  cases request with
  | openRange key offset =>
      show Bucket.BreakableAnswers refuses (.openRange key offset) (m.bucket name)
        (cutRange (Stream.failingAt count) name key offset m) (m.bucket name)
      obtain ⟨object, start, hkey, hstart, hcut⟩ | hanswer :=
        cutRange_cases (Stream.failingAt count) name key offset m
      · rw [hcut]
        exact .breaking hkey hstart (Stream.breaksOff_failingAt count _)
      · exact .steady (.whole hanswer)
  | head key => exact .steady (.whole (hwhole.answer (.head key) m))
  | get key => exact .steady (.whole (hwhole.answer (.get key) m))
  | put key upload => exact .steady (.whole (hwhole.answer (.put key upload) m))
  | delete key => exact .steady (.whole (hwhole.answer (.delete key) m))
  | copy source destination => exact .steady (.whole (hwhole.answer (.copy source destination) m))
  | list request => exact .steady (.whole (hwhole.answer (.list request) m))

end Memory

end BucketTree
