import BucketTree.Proofs.Contract.Permissions
import BucketTree.Proofs.Store.Answers
import BucketTree.Store.Interference

/-!
# Interference under a contract

Rules of interference may remove objects, raise faults and cancel tokens. As long as they do not
violate the protected property, and give trusted answers only, the store in memory with these rules
honors the contract (`World.backend_honors`).
-/

set_option autoImplicit false

namespace BucketTree

/-- The contract protects `inv`: every permitted request preserves it, and the answers of a bucket
that satisfies it are trusted. Every stream is trusted. -/
structure Contract.Protects (c : Contract) (inv : Contents → Prop) : Prop where
  reading : c.PermitsReading
  streams : ∀ key offset stream, c.trusts (.openRange key offset) stream
  answers : ∀ {fails : Request → Fault → Prop} {request : Request} {b b' : Bucket}
    {outcome : Except Fault request.Answer}, Bucket.Answers fails request b outcome b' →
      c.permits request → inv b.contents →
        inv b'.contents ∧ ∀ answer, outcome = .ok answer → c.trusts request answer

/-- The removals of the rule preserve `inv`, and its answers are trusted. -/
structure Rule.Respects (c : Contract) (inv : Contents → Prop) (r : Rule) : Prop where
  vanish : ∀ key ∈ r.vanish, ∀ contents, inv contents → inv (Function.update contents key none)
  answer : ∀ request answer, r.answer.bind (·.to? request) = some answer → c.trusts request answer

variable {c : Contract} {inv : Contents → Prop}

/-- The function `choose` returns one of the rules and keeps the others. -/
theorem Rule.forall_choose {rules : List Rule} (h : ∀ r ∈ rules, r.Respects c inv)
    (request : Request) :
    (∀ r, (choose request rules).1 = some r → r.Respects c inv) ∧
      ∀ r ∈ (choose request rules).2, r.Respects c inv := by
  induction rules with
  | nil =>
      refine ⟨?_, h⟩
      rintro _ ⟨⟩
  | cons r rest ih =>
      obtain ⟨hr, hrest⟩ := List.forall_mem_cons.1 h
      obtain ⟨hfired, hleft⟩ := ih hrest
      have hcounted : ∀ skip times, { r with skip := skip, times := times }.Respects c inv :=
        fun _ _ => ⟨hr.vanish, hr.answer⟩
      unfold choose
      split
      · exact ⟨hfired, List.forall_mem_cons.2 ⟨hr, hleft⟩⟩
      · split
        · exact ⟨hfired, List.forall_mem_cons.2 ⟨hcounted _ _, hleft⟩⟩
        · split
          · exact ⟨hfired, List.forall_mem_cons.2 ⟨hr, hleft⟩⟩
          · refine ⟨?_, List.forall_mem_cons.2 ⟨hcounted _ _, hrest⟩⟩
            rintro _ ⟨⟩
            exact hr

namespace World

/-- All rules respect the contract, and the contents of the bucket `name` satisfy `inv`. -/
structure Upholds (c : Contract) (inv : Contents → Prop) (name : String) (w : World) : Prop where
  rules : ∀ r ∈ w.rules, r.Respects c inv
  bucket : inv (w.memory.bucket name).contents

variable {name : String} {w : World} {request : Request}

theorem Upholds.cancel (h : w.Upholds c inv name) (token : Option Token) :
    (w.cancel token).Upholds c inv name := by
  cases token with
  | none => exact h
  | some token => exact ⟨h.rules, h.bucket⟩

/-- Removals that preserve `inv` one by one preserve it together. -/
theorem upheld_foldl_erase {keys : List Key} {b : Bucket}
    (hkeys : ∀ key ∈ keys, ∀ contents, inv contents → inv (Function.update contents key none))
    (h : inv b.contents) : inv (keys.foldl (fun b key => b.erase key) b).contents := by
  induction keys generalizing b with
  | nil => exact h
  | cons key rest ih =>
      obtain ⟨hkey, hrest⟩ := List.forall_mem_cons.1 hkeys
      apply ih hrest
      rw [Bucket.contents_erase]
      exact hkey _ h

theorem Upholds.vanish (h : w.Upholds c inv name) {r : Rule} (hr : r.Respects c inv) :
    (w.vanish name r.vanish).Upholds c inv name := by
  unfold World.vanish
  split
  · exact h
  · refine ⟨h.rules, ?_⟩
    show inv ((w.memory.setBucket name _).bucket name).contents
    rw [Memory.bucket_setBucket, if_pos rfl]
    exact upheld_foldl_erase hr.vanish h.bucket

/-- After the request the invariant holds, and the answer is a trusted one. -/
def Serves (c : Contract) (inv : Contents → Prop) (name : String) (request : Request)
    (r : Except Fault request.Answer × World) : Prop :=
  r.2.Upholds c inv name ∧ ∀ answer, r.1 = .ok answer → c.trusts request answer

/-- Interference by rules that respect the contract keeps the guarantees of a request. -/
theorem serves_interfere {real : World → Except Fault request.Answer × World}
    (hreal : ∀ w, w.Upholds c inv name → Serves c inv name request (real w))
    (h : w.Upholds c inv name) : Serves c inv name request (interfere name request real w) := by
  obtain ⟨hfired, hrules⟩ := Rule.forall_choose h.rules request
  unfold interfere
  generalize Rule.choose request w.rules = chosen at hfired hrules
  obtain ⟨fired, rules⟩ := chosen
  have hw : World.Upholds c inv name
      { w with requests := request :: w.requests, rules := rules } := ⟨hrules, h.bucket⟩
  cases fired with
  | none => exact hreal _ hw
  | some rule =>
      have hrule := hfired rule rfl
      have hleft := (hw.vanish hrule).cancel rule.cancel
      dsimp only
      -- the rule raises a fault, or answers itself, or lets the store answer
      split
      · exact ⟨hleft, nofun⟩
      · split
        next answer hanswer =>
          refine ⟨hleft, ?_⟩
          rintro _ ⟨⟩
          exact hrule.answer request answer hanswer
        next =>
          have hserves := hreal _ hleft
          split
          next heq =>
            rw [heq] at hserves
            exact ⟨hserves.1.cancel rule.cancelAfter, hserves.2⟩
          next heq =>
            rw [heq] at hserves
            exact ⟨hserves.1, nofun⟩

variable (hc : c.Protects inv)

include hc in
theorem serves_fromMemory (hpermits : c.permits request) (h : w.Upholds c inv name) :
    Serves c inv name request (fromMemory name request w) := by
  obtain ⟨hbucket, htrusts⟩ :=
    hc.answers ((Memory.backend_follows name).answer request w.memory) hpermits h.bucket
  exact ⟨⟨h.rules, hbucket⟩, htrusts⟩

include hc in
theorem serves_carryOut (hpermits : c.permits request) (h : w.Upholds c inv name) :
    Serves c inv name request (carryOut name request w) := by
  cases request with
  | openRange key offset =>
      -- the data come from a request of their own
      have hget : Serves c inv name (.get key)
          (interfere name (.get key) (fromMemory name (.get key)) w) :=
        serves_interfere (fun _ => serves_fromMemory hc (hc.reading (.get key) rfl)) h
      exact ⟨hget.1, fun stream _ => hc.streams key offset stream⟩
  | _ => exact serves_fromMemory hc hpermits h

include hc in
/-- With rules that respect the contract, the store in memory honors it. -/
theorem backend_honors (name : String) :
    (World.backend name).Honors c (Upholds c inv name) where
  keeps _ _ hpermits h := (serves_interfere (fun _ => serves_carryOut hc hpermits) h).1
  trusts _ _ answer hpermits h :=
    (serves_interfere (fun _ => serves_carryOut hc hpermits) h).2 answer

end World

end BucketTree
