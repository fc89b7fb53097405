import BucketTree.Store.Grouping
import BucketTree.Store.Program

/-!
# A store in memory

A store that keeps its buckets in memory. It counts requests, and it reads a clock for each object
that it stores; the clock advances by a fixed step. `Memory.answer` answers one request on one
bucket. `find?_storeObject` describes the store after an object was stored.
-/

set_option autoImplicit false

namespace BucketTree

/-- A clock that advances by `step` with each reading, in microseconds. -/
structure Clock where
  now : Int
  step : Int

/-- The number of requests, by kind. A ranged read counts as a read. -/
structure RequestCount where
  head : Nat
  get : Nat
  put : Nat
  delete : Nat
  copy : Nat
  list : Nat

/-- A store with its buckets in memory. -/
structure Memory where
  /-- The buckets by name. A bucket that is not listed is empty. -/
  buckets : List (String × Bucket)
  count : RequestCount
  clock : Clock

namespace RequestCount

/-- The count before the first request. -/
def zero : RequestCount := ⟨0, 0, 0, 0, 0, 0⟩

end RequestCount

namespace Memory

/-- A store without objects. -/
def empty (clock : Clock) : Memory := ⟨[], .zero, clock⟩

/-- The bucket of a name among named buckets. -/
def findBucket (name : String) : List (String × Bucket) → Bucket
  | [] => .empty
  | (n, b) :: rest => if n = name then b else findBucket name rest

/-- The named buckets with one of them replaced. -/
def replaceBucket (name : String) (bucket : Bucket) :
    List (String × Bucket) → List (String × Bucket)
  | [] => [(name, bucket)]
  | (n, b) :: rest =>
      if n = name then (name, bucket) :: rest else (n, b) :: replaceBucket name bucket rest

/-- The bucket of a name. -/
def bucket (name : String) (m : Memory) : Bucket := findBucket name m.buckets

/-- The store with the bucket of a name replaced. -/
def setBucket (name : String) (b : Bucket) (m : Memory) : Memory :=
  { m with buckets := replaceBucket name b m.buckets }

theorem findBucket_replaceBucket (name other : String) (b : Bucket)
    (buckets : List (String × Bucket)) :
    findBucket other (replaceBucket name b buckets) =
      if name = other then b else findBucket other buckets := by
  induction buckets with
  | nil => rfl
  | cons head rest ih =>
      obtain ⟨n, old⟩ := head
      by_cases hn : n = name
      · subst hn
        by_cases ho : n = other <;> simp [replaceBucket, findBucket, ho]
      · by_cases ho : n = other
        · subst ho
          simp [replaceBucket, findBucket, hn, Ne.symm hn]
        · simp [replaceBucket, findBucket, hn, ho, ih]

/-- Replacing a bucket keeps the others. -/
@[simp]
theorem bucket_setBucket (name other : String) (b : Bucket) (m : Memory) :
    (m.setBucket name b).bucket other = if name = other then b else m.bucket other :=
  findBucket_replaceBucket name other b m.buckets

/-- Stores content at a key, with the time of the clock. -/
def storeObject (name : String) (key : Key) (content : Bytes) (block : BlockNumber)
    (m : Memory) : Memory :=
  let stored := (m.bucket name).insert key ⟨content, m.clock.now, block⟩
  { m.setBucket name stored with clock := { m.clock with now := m.clock.now + m.clock.step } }

/-- Stores content at a key, unless the time of the clock is beyond the calendar. -/
def keep (name : String) (key : Key) (content : Bytes) (block : BlockNumber) (m : Memory) :
    Except Fault Unit × Memory :=
  match Moment.clockFault? m.clock.now with
  | some fault => (.error (.misuse (.moment fault)), m)
  | none => (.ok (), m.storeObject name key content block)

/-- Stored content is found at its key with the time of the clock. The other keys keep their
objects. -/
theorem find?_storeObject (name : String) (key other : Key) (content : Bytes)
    (block : BlockNumber) (m : Memory) :
    ((m.storeObject name key content block).bucket name).find? other =
      if key = other then some ⟨content, m.clock.now, block⟩
      else (m.bucket name).find? other := by
  show ((m.setBucket name _).bucket name).find? other = _
  rw [bucket_setBucket, if_pos rfl, Bucket.find?_insert]

/-- The object at a key, or the fault that there is none. -/
def lookup (name : String) (key : Key) (m : Memory) : Except Fault StoredObject :=
  match (m.bucket name).find? key with
  | some object => .ok object
  | none => .error (.known (.notFound key (.noSuchKey key)))

/-- Tells whether an object in one of the buckets lies in the given block of memory. -/
def holds (block : BlockNumber) (m : Memory) : Bool := m.buckets.any fun e => e.2.holds block

/-- The metadata of an object. -/
def metadata (object : StoredObject) : Metadata :=
  ⟨.int object.content.length, .moment ⟨object.modified, some 0⟩⟩

/-- Answers `head`. -/
def head (name : String) (key : Key) (m : Memory) : Except Fault (Option Metadata) × Memory :=
  ((m.lookup name key).map fun object => some (metadata object),
    { m with count := { m.count with head := m.count.head + 1 } })

/-- Answers `get`. -/
def get (name : String) (key : Key) (m : Memory) : Except Fault Body × Memory :=
  ((m.lookup name key).map (·.body),
    { m with count := { m.count with get := m.count.get + 1 } })

/-- Answers `put`. Data for which memory has no room, or with another length than announced, is
refused and not counted. The number of uploads is the number of the new block, for a content without
a block of its own. -/
def put (name : String) (key : Key) (upload : Upload) (m : Memory) :
    Except Fault (Option BlockNumber) × Memory :=
  if upload.isTooLarge then (.error (.misuse .outOfMemory), m)
  else
    match upload.received with
    | .error misuse => (.error (.misuse misuse), m)
    | .ok content =>
        if upload.announces content.length then
          let block := upload.block.getD m.count.put
          let counted := { m with count := { m.count with put := m.count.put + 1 } }
          let (outcome, m) := counted.keep name key content block
          (outcome.map fun _ => some block, m)
        else
          (.error (.known (.store (some "PUT") key
            (.lengthMismatch key upload.length content.length))), m)

/-- Answers `delete`. -/
def delete (name : String) (key : Key) (m : Memory) : Except Fault Unit × Memory :=
  let counted := { m with count := { m.count with delete := m.count.delete + 1 } }
  match m.lookup name key with
  | .ok _ => (.ok (), counted.setBucket name ((m.bucket name).erase key))
  | .error fault => (.error fault, counted)

/-- Answers `copy`. -/
def copy (name : String) (source destination : Key) (m : Memory) : Except Fault Unit × Memory :=
  let counted := { m with count := { m.count with copy := m.count.copy + 1 } }
  match m.lookup name source with
  | .ok object => counted.keep name destination object.content object.block
  | .error fault => (.error fault, counted)

/-- Answers `list`. A refused page size is not counted. A page size that is no integer fails only
when the page is cut. -/
def list (name : String) (request : PageRequest) (m : Memory) :
    Except Fault (Option Page) × Memory :=
  match Bucket.pageSize request with
  | .error fault => (.error fault, m)
  | .ok size =>
      ((size.cutPoint.mapError .misuse).map fun n =>
          some ((m.bucket name).page request n.toNat),
        { m with count := { m.count with list := m.count.list + 1 } })

/-- Answers a request on the bucket of a name. -/
def answer (name : String) : (request : Request) → Memory → Except Fault request.Answer × Memory
  | .head key, m => m.head name key
  | .get key, m => m.get name key
  | .put key upload, m => m.put name key upload
  | .delete key, m => m.delete name key
  | .copy source destination, m => m.copy name source destination
  | .list request, m => m.list name request
  | .openRange key offset, m =>
      let (outcome, m) := m.get name key
      (outcome.bind (Stream.ofBodyFrom offset), m)

/-- The store as a backend, without any cancelled token. -/
def backend (name : String) : Backend Memory := ⟨answer name, fun _ _ => false⟩

end Memory

end BucketTree
