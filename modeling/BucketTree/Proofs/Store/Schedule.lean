import BucketTree.Proofs.Store.Effects

/-!
# Schedules of faults

A `Schedule` decides at each request, from the list of all requests so far, whether the store in
memory raises a fault instead of answering, and which tokens are cancelled. Under a schedule of loud
faults the store follows the environment of its bucket with loud faults
(`Schedule.backend_follows`).

The memory blocks of an upload make no difference to the store. When the schedule does not look at
them either, uploads that differ only there have the same outcome (`Schedule.answer_put_looksLike`).
-/

set_option autoImplicit false

namespace BucketTree

/-- The faults that a store raises and the tokens that are cancelled, as functions of the requests
so far. -/
structure Schedule where
  /-- The fault raised instead of answering the last request. The list starts with the last
  request. -/
  raised : List Request → Option Fault
  /-- Whether a token is cancelled after these requests. -/
  isCancelled : Token → List Request → Bool

namespace Schedule

/-- A store in memory together with its requests so far, the last one first. -/
structure State where
  memory : Memory
  requests : List Request

/-- The answer of the store in memory, unless the schedule raises a fault. -/
def answer (schedule : Schedule) (name : String) (request : Request) (s : State) :
    Except Fault request.Answer × State :=
  let requests := request :: s.requests
  match schedule.raised requests with
  | some fault => (.error fault, ⟨s.memory, requests⟩)
  | none =>
      let (outcome, memory) := s.memory.answer name request
      (outcome, ⟨memory, requests⟩)

/-- The store under a schedule as a backend for the bucket `name`. -/
def backend (schedule : Schedule) (name : String) : Backend State :=
  ⟨schedule.answer name, fun token s => schedule.isCancelled token s.requests⟩

/-- No fault of the schedule is an absence. -/
def IsLoud (schedule : Schedule) : Prop :=
  ∀ requests fault, schedule.raised requests = some fault → fault.isAbsence = false

/-- Any request may fail by any loud fault. -/
def failsLoudly (_ : Request) (fault : Fault) : Prop := fault.isAbsence = false

theorem loud_failsLoudly : Loud failsLoudly := fun _ _ h => h

/-- The store under a schedule follows the environment that admits the faults of the schedule and
those of the store in memory. -/
theorem backend_follows_of {schedule : Schedule} {fails : Request → Fault → Prop}
    (hraised : ∀ requests request fault,
      schedule.raised requests = some fault → fails request fault)
    (hrefused : ∀ request fault, Memory.refuses request fault → fails request fault)
    (name : String) :
    (schedule.backend name).Follows (fun s => s.memory.bucket name)
      (Bucket.environment fails) := by
  refine ⟨?_, fun _ _ => trivial⟩
  intro request s
  show Bucket.Answers fails request _ (schedule.answer name request s).1
    ((schedule.answer name request s).2.memory.bucket name)
  unfold answer
  dsimp only
  cases hfault : schedule.raised (request :: s.requests) with
  | some fault =>
      dsimp only
      exact .failed (hraised _ _ _ hfault)
  | none => exact ((Memory.backend_follows name).answer request s.memory).mono hrefused

/-- The store under any schedule follows the environment that admits all faults. -/
theorem backend_follows_any (schedule : Schedule) (name : String) :
    (schedule.backend name).Follows (fun s => s.memory.bucket name)
      (Bucket.environment fun _ _ => True) :=
  backend_follows_of (fun _ _ _ _ => trivial) (fun _ _ _ => trivial) name

/-- The store under a loud schedule follows the environment that admits all loud faults. -/
theorem backend_follows {schedule : Schedule} (hloud : schedule.IsLoud) (name : String) :
    (schedule.backend name).Follows (fun s => s.memory.bucket name)
      (Bucket.environment failsLoudly) :=
  backend_follows_of (fun _ _ _ hfault => hloud _ _ hfault) Memory.loud_refuses name

/-! ## Schedules that see what a store sees -/

/-- The faults of the schedule do not depend on the memory blocks of uploads. -/
def IsBlind (schedule : Schedule) : Prop :=
  ∀ requests requests', List.Forall₂ Request.LooksLike requests requests' →
    schedule.raised requests = schedule.raised requests'

/-- The two stores look alike, and so do their requests so far. -/
structure State.LooksLike (name : String) (s s' : State) : Prop where
  memory : s.memory.LooksLike name s'.memory
  requests : List.Forall₂ Request.LooksLike s.requests s'.requests

theorem State.LooksLike.refl (name : String) (s : State) : s.LooksLike name s :=
  ⟨⟨rfl, rfl⟩, List.forall₂_same.2 fun request _ => .same request⟩

/-- Under a blind schedule, uploads that look alike have the same outcome. -/
theorem answer_put_looksLike {schedule : Schedule} (hblind : schedule.IsBlind) {name : String}
    {s s' : State} {u u' : Upload} (hs : s.LooksLike name s') (hu : u.LooksLike u') (key : Key) :
    (schedule.answer name (.put key u) s).1.map (fun _ => ()) =
        (schedule.answer name (.put key u') s').1.map (fun _ => ()) ∧
      (schedule.answer name (.put key u) s).2.LooksLike name
        (schedule.answer name (.put key u') s').2 := by
  have hrequests : List.Forall₂ Request.LooksLike (.put key u :: s.requests)
      (.put key u' :: s'.requests) := .cons (.put hu) hs.requests
  unfold answer
  dsimp only
  rw [hblind _ _ hrequests]
  split
  · exact ⟨rfl, hs.memory, hrequests⟩
  · obtain ⟨houtcome, hmemory⟩ := hu.put hs.memory key
    exact ⟨houtcome, hmemory, hrequests⟩

/-- The schedule under which deleting the object at `key` is refused for lack of permission. -/
def protecting (key : Key) : Schedule where
  raised
    | .delete target :: _ =>
        if target = key then some (.remote (some .permissionDenied) "protected") else none
    | _ => none
  isCancelled _ _ := false

theorem isLoud_protecting (key : Key) : (protecting key).IsLoud := by
  intro requests fault h
  unfold protecting at h
  dsimp only at h
  split at h
  · split at h
    · cases h
      rfl
    · cases h
  · cases h

end Schedule

end BucketTree
