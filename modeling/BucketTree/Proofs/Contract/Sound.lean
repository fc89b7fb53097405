import BucketTree.Proofs.Contract.World
import BucketTree.Tree.Status

/-!
# Sound stores

A store is sound when its metadata carry no infinite size and its streams close without a fault; it
may fail any request. The store in memory is sound, also with interference by rules that give no
such answer.
-/

set_option autoImplicit false

namespace BucketTree

/-- The answers of a sound store. -/
def Contract.soundTrusts : (request : Request) → request.Answer → Prop
  | .head _, metadata => Metadata.isInfinite metadata = false
  | .openRange _ _, stream => stream.closeFault = none
  | _, _ => True

/-- The contract with a sound store, which permits every request. -/
def Contract.sound : Contract := ⟨fun _ => True, Contract.soundTrusts⟩

/-- A stream over a body closes without a fault. -/
theorem Stream.closeFault_ofBodyFrom {offset : Value} {body : Body} {stream : Stream}
    (h : Stream.ofBodyFrom offset body = .ok stream) : stream.closeFault = none := by
  unfold ofBodyFrom at h
  cases hpoint : offset.startPoint with
  | error misuse => rw [hpoint] at h; cases h
  | ok start => rw [hpoint] at h; cases h; rfl

/-- The answers of a bucket are sound. -/
theorem Bucket.Answers.sound {fails : Request → Fault → Prop} {request : Request} {b b' : Bucket}
    {outcome : Except Fault request.Answer} (h : Bucket.Answers fails request b outcome b') :
    ∀ answer, outcome = .ok answer → Contract.sound.trusts request answer := by
  cases h with
  | openRange hkey => exact fun stream hstream => Stream.closeFault_ofBodyFrom hstream
  | head hkey =>
      rintro _ ⟨⟩
      rfl
  | failed hfault => exact nofun
  | absent hneeds hkey => exact nofun
  | _ => exact fun _ _ => trivial

/-- A backend that answers by its contents is sound, for any faults. -/
theorem Backend.Follows.honors_sound {σ : Type} {backend : Backend σ} {view : σ → Bucket}
    {fails : Request → Fault → Prop} (hf : backend.Follows view (Bucket.environment fails)) :
    backend.Honors .sound (fun _ => True) where
  keeps _ _ _ _ := trivial
  trusts request s answer _ _ hanswer := (hf.answer request s).sound answer hanswer

end BucketTree
