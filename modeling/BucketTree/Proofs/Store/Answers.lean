import BucketTree.Proofs.Program.Ensures
import BucketTree.Proofs.Store.Contents
import BucketTree.Store.Memory

/-!
# The answers of a store

`Bucket.Answers` relates a request on a bucket to its possible outcomes and the bucket afterwards. A
request may fail without any effect, by a fault that `fails` admits; otherwise the contents of the
bucket determine the answer. The store in memory follows this environment, with faults of writes and
listings only (`Memory.backend_follows`). A fault is *loud* when it does not say that an object does
not exist.
-/

set_option autoImplicit false

namespace BucketTree

/-! ## Loud faults -/

/-- The fault says that the object of the request does not exist. -/
def Fault.isAbsence (fault : Fault) : Bool := (fault.toFailure none none).isNotFound

/-- Whether a fault is an absence depends on neither the operation nor the key of the failure. -/
theorem Fault.toFailure_isNotFound (operation : Option String) (key : Option Key)
    (fault : Fault) : (fault.toFailure operation key).isNotFound = fault.isAbsence := by
  have hverdict : ∀ verdict : Verdict,
      (verdict.failure operation key).isNotFound = (verdict.failure none none).isNotFound := by
    intro verdict
    cases verdict with
    | absent words => rfl
    | broken words code => rfl
  cases fault with
  | known failure => rfl
  | reported report => rfl
  | misuse misuse => exact hverdict (Fault.misuse misuse).verdict
  | remote status details => exact hverdict (Fault.remote status details).verdict
  | unsupported argument => exact hverdict (Fault.unsupported argument).verdict
  | raised name argument => exact hverdict (Fault.raised name argument).verdict

/-- The predicate `fails` admits loud faults only. -/
def Loud (fails : Request → Fault → Prop) : Prop :=
  ∀ request fault, fails request fault → fault.isAbsence = false

/-- The key whose object a request needs. An upload and a listing need none. -/
def Request.needs? : Request → Option Key
  | .head key => some key
  | .get key => some key
  | .put _ _ => none
  | .delete key => some key
  | .copy source _ => some source
  | .list _ => none
  | .openRange key _ => some key

namespace Bucket

/-- The possible outcomes of a request on a bucket, each with the bucket afterwards. -/
inductive Answers (fails : Request → Fault → Prop) :
    (request : Request) → Bucket → Except Fault request.Answer → Bucket → Prop
  /-- A request that fails by an admitted fault changes nothing. -/
  | failed {request : Request} {b : Bucket} {fault : Fault} (hfault : fails request fault) :
      Answers fails request b (.error fault) b
  /-- The object that the request needs does not exist. -/
  | absent {request : Request} {b : Bucket} {key : Key} (hneeds : request.needs? = some key)
      (hkey : b.find? key = none) :
      Answers fails request b (.error (.known (.notFound key (.noSuchKey key)))) b
  | head {b : Bucket} {key : Key} {object : StoredObject} (hkey : b.find? key = some object) :
      Answers fails (.head key) b (.ok (some (Memory.metadata object))) b
  | get {b : Bucket} {key : Key} {object : StoredObject} (hkey : b.find? key = some object) :
      Answers fails (.get key) b (.ok object.body) b
  | put {b b' : Bucket} {key : Key} {upload : Upload} {content : Bytes}
      {block : Option BlockNumber} (hcontent : upload.received = .ok content)
      (hstored : b'.contents = Function.update b.contents key (some content)) :
      Answers fails (.put key upload) b (.ok block) b'
  | delete {b b' : Bucket} {key : Key} {object : StoredObject}
      (hkey : b.find? key = some object)
      (herased : b'.contents = Function.update b.contents key none) :
      Answers fails (.delete key) b (.ok ()) b'
  | copy {b b' : Bucket} {source destination : Key} {object : StoredObject}
      (hkey : b.find? source = some object)
      (hstored : b'.contents = Function.update b.contents destination (some object.content)) :
      Answers fails (.copy source destination) b (.ok ()) b'
  /-- A page has room for at least one name. -/
  | list {b : Bucket} {request : PageRequest} {size : Nat} (hsize : 1 ≤ size) :
      Answers fails (.list request) b (.ok (some (b.page request size))) b
  | openRange {b : Bucket} {key : Key} {offset : Value} {object : StoredObject}
      (hkey : b.find? key = some object) :
      Answers fails (.openRange key offset) b (Stream.ofBodyFrom offset object.body) b

/-- The predicate `Answers` is monotone in the admitted faults. -/
theorem Answers.mono {fails fails' : Request → Fault → Prop}
    (hfails : ∀ request fault, fails request fault → fails' request fault) {request : Request}
    {b b' : Bucket} {outcome : Except Fault request.Answer}
    (h : Answers fails request b outcome b') : Answers fails' request b outcome b' := by
  cases h with
  | failed hfault => exact .failed (hfails _ _ hfault)
  | absent hneeds hkey => exact .absent hneeds hkey
  | head hkey => exact .head hkey
  | get hkey => exact .get hkey
  | put hcontent hstored => exact .put hcontent hstored
  | delete hkey herased => exact .delete hkey herased
  | copy hkey hstored => exact .copy hkey hstored
  | list hsize => exact .list hsize
  | openRange hkey => exact .openRange hkey

/-- An upload that fails changes nothing. -/
theorem Answers.put_error {fails : Request → Fault → Prop} {b b' : Bucket} {key : Key}
    {upload : Upload} {fault : Fault} (h : Answers fails (.put key upload) b (.error fault) b') :
    b' = b := by
  cases h with
  | failed hfault => rfl
  | absent hneeds hkey => rfl

/-- An upload that succeeds stores the bytes received. -/
theorem Answers.put_ok {fails : Request → Fault → Prop} {b b' : Bucket} {key : Key}
    {upload : Upload} {block : Option BlockNumber} {content : Bytes}
    (h : Answers fails (.put key upload) b (.ok block) b')
    (hcontent : upload.received = .ok content) :
    b'.contents = Function.update b.contents key (some content) := by
  cases h with
  | put hreceived hstored =>
      rw [hcontent] at hreceived
      cases hreceived
      exact hstored

/-- The environment of one bucket, where any check of a token may find it cancelled. -/
def environment (fails : Request → Fault → Prop) : Environment Bucket :=
  ⟨Answers fails, fun _ _ _ => True⟩

end Bucket

/-- The predicate `Bucket.Answers` for the uploads of the backend. -/
def Backend.Stores {σ : Type} (backend : Backend σ) (view : σ → Bucket)
    (fails : Request → Fault → Prop) : Prop :=
  ∀ key upload s, Bucket.Answers fails (.put key upload) (view s)
    (backend.answer (.put key upload) s).1 (view (backend.answer (.put key upload) s).2)

theorem Backend.Follows.stores {σ : Type} {backend : Backend σ} {view : σ → Bucket}
    {fails : Request → Fault → Prop} (h : backend.Follows view (Bucket.environment fails)) :
    backend.Stores view fails :=
  fun key upload => h.answer (.put key upload)

/-! ## The store in memory -/

namespace Memory

/-- The faults of the store in memory. A put or a copy may fail loudly, and so may a listing whose
page size is no positive integer. -/
def refuses : Request → Fault → Prop
  | .put _ _, fault => fault.isAbsence = false
  | .copy _ _, fault => fault.isAbsence = false
  | .list request, fault =>
      fault.isAbsence = false ∧ ∀ size : Int, request.maxKeys = .int size → size < 1
  | _, _ => False

theorem loud_refuses : Loud refuses := by
  intro request fault h
  cases request with
  | put key upload => exact h
  | copy source destination => exact h
  | list request => exact h.1
  | head key => exact h.elim
  | get key => exact h.elim
  | delete key => exact h.elim
  | openRange key offset => exact h.elim

/-- The store in memory with the given objects in one bucket. -/
def ofObjects (name : String) (objects : List (Key × Bytes)) : Memory :=
  objects.foldl (fun m (key, bytes) => m.storeObject name key bytes 0) (empty ⟨0, 1⟩)

/-- The size of a page is at least one. -/
theorem one_le_of_pageSize {request : PageRequest} {size : Value} {n : Int}
    (hsize : Bucket.pageSize request = .ok size) (hcut : size.cutPoint = .ok n) : 1 ≤ n := by
  have hbelow : size.isBelow 1 = .ok false := by
    unfold Bucket.pageSize at hsize
    split at hsize
    · cases hsize
    · split at hsize <;> cases hsize
      assumption
  cases size with
  | bool flag => cases flag <;> cases hcut <;> simp_all [Value.isBelow]
  | int m =>
      cases hcut
      simpa using hbelow
  | _ => cases hcut

/-- A positive integer is a page size, up to `pageCap`. -/
theorem pageSize_int {request : PageRequest} {m : Int} (hm : 1 ≤ m)
    (hmax : request.maxKeys = .int m) :
    Bucket.pageSize request = .ok (.int (min m pageCap)) := by
  have hcap : 1 ≤ min m pageCap := by
    unfold pageCap
    omega
  have hbelow : decide (min m pageCap < 1) = false := decide_eq_false (Int.not_lt.2 hcap)
  unfold Bucket.pageSize Bucket.sizeAtMost
  rw [hmax]
  simp only [Value.atMost_int, Value.isBelow_int, hbelow]

variable {name : String}

theorem keep_answers {key : Key} {content : Bytes} {block : BlockNumber} {m : Memory}
    {outcome : Except Fault Unit} {m' : Memory}
    (h : m.keep name key content block = (outcome, m')) :
    (∃ fault, outcome = .error fault ∧ fault.isAbsence = false ∧ m'.bucket name = m.bucket name) ∨
      (outcome = .ok () ∧ (m'.bucket name).contents =
        Function.update (m.bucket name).contents key (some content)) := by
  unfold keep at h
  split at h
  · cases h
    exact Or.inl ⟨_, rfl, rfl, rfl⟩
  · cases h
    refine Or.inr ⟨rfl, ?_⟩
    show ((m.setBucket name _).bucket name).contents = _
    rw [bucket_setBucket, if_pos rfl, Bucket.contents_insert]

theorem put_answers (key : Key) (upload : Upload) (m : Memory) :
    Bucket.Answers refuses (.put key upload) (m.bucket name) (m.put name key upload).1
      ((m.put name key upload).2.bucket name) := by
  unfold put
  split
  · exact .failed rfl
  · split
    · exact .failed rfl
    next content hreceived =>
      split
      · -- the clock may show a time that cannot be stored
        dsimp only
        rcases hkeep : keep name key content (upload.block.getD m.count.put)
          { m with count := { m.count with put := m.count.put + 1 } } with ⟨outcome, m'⟩
        obtain ⟨fault, rfl, hloud, hbucket⟩ | ⟨rfl, hstored⟩ := keep_answers hkeep
        · rw [hbucket]
          exact .failed hloud
        · exact .put hreceived hstored
      · exact .failed rfl

theorem lookup_eq (name : String) (key : Key) (m : Memory) :
    (∃ object, (m.bucket name).find? key = some object ∧ m.lookup name key = .ok object) ∨
      ((m.bucket name).find? key = none ∧
        m.lookup name key = .error (.known (.notFound key (.noSuchKey key)))) := by
  unfold lookup
  cases (m.bucket name).find? key with
  | some object => exact Or.inl ⟨object, rfl, rfl⟩
  | none => exact Or.inr ⟨rfl, rfl⟩

theorem delete_answers (key : Key) (m : Memory) :
    Bucket.Answers refuses (.delete key) (m.bucket name) (m.delete name key).1
      ((m.delete name key).2.bucket name) := by
  unfold delete
  obtain ⟨object, hkey, hlookup⟩ | ⟨hkey, hlookup⟩ := lookup_eq name key m
  · rw [hlookup]
    refine .delete hkey ?_
    show ((setBucket name _ _).bucket name).contents = _
    rw [bucket_setBucket, if_pos rfl, Bucket.contents_erase]
  · rw [hlookup]
    exact .absent rfl hkey

theorem copy_answers (source destination : Key) (m : Memory) :
    Bucket.Answers refuses (.copy source destination) (m.bucket name)
      (m.copy name source destination).1 ((m.copy name source destination).2.bucket name) := by
  unfold copy
  obtain ⟨object, hkey, hlookup⟩ | ⟨hkey, hlookup⟩ := lookup_eq name source m
  · rw [hlookup]
    dsimp only
    rcases hkeep : keep name destination object.content object.block
      { m with count := { m.count with copy := m.count.copy + 1 } } with ⟨outcome, m'⟩
    obtain ⟨fault, rfl, hloud, hbucket⟩ | ⟨rfl, hstored⟩ := keep_answers hkeep
    · rw [hbucket]
      exact .failed hloud
    · exact .copy hkey hstored
  · rw [hlookup]
    exact .absent rfl hkey

theorem isAbsence_of_pageSize {request : PageRequest} {fault : Fault}
    (h : Bucket.pageSize request = .error fault) : fault.isAbsence = false := by
  unfold Bucket.pageSize at h
  split at h
  · cases h
    rfl
  · split at h <;> cases h <;> rfl

/-- A listing that fails has a page size that is no positive integer. -/
theorem refuses_list {request : PageRequest} {fault : Fault} (hloud : fault.isAbsence = false)
    (h : ∀ m : Int, Bucket.pageSize request ≠ .ok (.int m)) :
    refuses (.list request) fault := by
  refine ⟨hloud, ?_⟩
  intro size hmax
  by_contra hsize
  exact h _ (pageSize_int (Int.not_lt.1 hsize) hmax)

theorem list_answers (request : PageRequest) (m : Memory) :
    Bucket.Answers refuses (.list request) (m.bucket name) (m.list name request).1
      ((m.list name request).2.bucket name) := by
  unfold list
  cases hsize : Bucket.pageSize request with
  | error fault =>
      refine .failed (refuses_list (isAbsence_of_pageSize hsize) ?_)
      intro n hn
      rw [hsize] at hn
      cases hn
  | ok size =>
      dsimp only
      cases hcut : size.cutPoint with
      | error misuse =>
          refine .failed (refuses_list rfl ?_)
          intro n hn
          rw [hsize] at hn
          cases hn
          cases hcut
      | ok n =>
          have hn := one_le_of_pageSize hsize hcut
          exact .list (by omega)

/-- The store in memory follows the environment of its bucket. -/
theorem backend_follows (name : String) :
    (Memory.backend name).Follows (Memory.bucket name) (Bucket.environment refuses) := by
  refine ⟨?_, fun _ _ => trivial⟩
  intro request m
  cases request with
  | put key upload => exact put_answers key upload m
  | delete key => exact delete_answers key m
  | copy source destination => exact copy_answers source destination m
  | list request => exact list_answers request m
  | head key =>
      show Bucket.Answers refuses (.head key) (m.bucket name) ((m.lookup name key).map _)
        (m.bucket name)
      obtain ⟨object, hkey, hlookup⟩ | ⟨hkey, hlookup⟩ := lookup_eq name key m
      · rw [hlookup]
        exact .head hkey
      · rw [hlookup]
        exact .absent rfl hkey
  | get key =>
      show Bucket.Answers refuses (.get key) (m.bucket name) ((m.lookup name key).map _)
        (m.bucket name)
      obtain ⟨object, hkey, hlookup⟩ | ⟨hkey, hlookup⟩ := lookup_eq name key m
      · rw [hlookup]
        exact .get hkey
      · rw [hlookup]
        exact .absent rfl hkey
  | openRange key offset =>
      show Bucket.Answers refuses (.openRange key offset) (m.bucket name)
        (((m.lookup name key).map _).bind _) (m.bucket name)
      obtain ⟨object, hkey, hlookup⟩ | ⟨hkey, hlookup⟩ := lookup_eq name key m
      · rw [hlookup]
        exact .openRange hkey
      · rw [hlookup]
        exact .absent rfl hkey

end Memory

end BucketTree
