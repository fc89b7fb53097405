import BucketTree.Proofs.Program.Ensures

/-!
# Contracts with a store

A `Contract` lists the requests that a store may be sent and the answers that its callers trust; any
request may also fail. A program `Keeps` a contract when it sends permitted requests only, as long
as every answer so far was a trusted one. On a backend that honors the contract in the states of an
invariant, such a program preserves the invariant (`Program.Keeps.run`).
-/

set_option autoImplicit false

namespace BucketTree

variable {α β ε ρ σ : Type}

/-- The requests that a store may be sent, and the answers to each request that its callers trust it
to give. -/
structure Contract where
  permits : Request → Prop
  trusts : (request : Request) → request.Answer → Prop

/-- The store that answers every request with a trusted answer or with any fault. -/
def Contract.environment (c : Contract) : Environment Unit where
  answers request _ outcome _ := ∀ answer, outcome = .ok answer → c.trusts request answer
  cancels _ _ _ := True

/-- From a state that satisfies `inv`, a permitted request leads to a state that satisfies `inv`,
and its answer is a trusted one. -/
structure Backend.Honors (backend : Backend σ) (c : Contract) (inv : σ → Prop) : Prop where
  keeps : ∀ request s, c.permits request → inv s → inv (backend.answer request s).2
  trusts : ∀ request s answer, c.permits request → inv s →
    (backend.answer request s).1 = .ok answer → c.trusts request answer

namespace Program

/-- On every store that gives trusted answers or faults, the program sends permitted requests only
and its results satisfy `returns`. -/
def Keeps (c : Contract) (returns : α → Prop) (p : Program α) : Prop :=
  p.Ensures c.environment (fun request _ => c.permits request)
    (fun r _ => ∀ a, r = some a → returns a) ()

section Rules

variable {c : Contract} {first : α → Prop} {returns : β → Prop}

theorem keeps_pure {b : β} (h : returns b) : (pure b : Program β).Keeps c returns := by
  rintro _ ⟨⟩
  exact h

theorem keeps_endless : (endless : Program β).Keeps c returns := nofun

theorem Keeps.mono {p : Program α} {weaker : α → Prop} (h : p.Keeps c first)
    (hweaker : ∀ a, first a → weaker a) : p.Keeps c weaker :=
  Ensures.mono h fun _ _ hfirst a ha => hweaker a (hfirst a ha)

/-- Rule for `>>=`. -/
theorem Keeps.bind {p : Program α} {f : α → Program β} (h : p.Keeps c first)
    (hf : ∀ a, first a → (f a).Keeps c returns) : (p >>= f).Keeps c returns := by
  refine ensures_bind (Ensures.mono h ?_)
  rintro (_ | a) _ hfirst
  · exact nofun
  · exact hf a (hfirst a rfl)

theorem keeps_request {request : Request} (hpermits : c.permits request) :
    (Program.request request).Keeps c
      (fun r => ∀ answer, r = .ok answer → c.trusts request answer) := by
  refine ensures_request hpermits ?_
  rintro r _ hr _ ⟨⟩
  exact hr

theorem keeps_isCancelled (token : Option Token) : (isCancelled token).Keeps c (fun _ => True) :=
  ensures_isCancelled (fun _ _ => trivial) fun _ _ _ _ _ => trivial

/-- A program that keeps the contract ensures the same in every environment where permitted requests
preserve `inv` and get trusted answers. -/
theorem Keeps.ensures {env : Environment σ} {inv : σ → Prop}
    (henv : ∀ request s outcome s', c.permits request → inv s →
      env.answers request s outcome s' →
        inv s' ∧ ∀ answer, outcome = .ok answer → c.trusts request answer)
    {p : Program α} (h : p.Keeps c first) {s : σ} (hinv : inv s) :
    p.Ensures env (fun request _ => c.permits request)
      (fun r s => inv s ∧ ∀ a, r = some a → first a) s := by
  induction p generalizing s with
  | done a => exact ⟨hinv, h⟩
  | poll token next ih => exact fun flag _ => ih flag (h flag trivial) hinv
  | call request next ih =>
      obtain ⟨hpermits, hnext⟩ := h
      refine ⟨hpermits, fun outcome s' hanswer => ?_⟩
      obtain ⟨hinv', htrusts⟩ := henv request s outcome s' hpermits hinv hanswer
      exact ih outcome (hnext outcome () htrusts) hinv'
  | endless => exact ⟨hinv, nofun⟩

/-- Two postconditions of a program hold together. -/
theorem Keeps.and {second : α → Prop} {p : Program α} (h : p.Keeps c first)
    (h' : p.Keeps c second) : p.Keeps c (fun a => first a ∧ second a) :=
  Ensures.mono (Ensures.and h h') fun _ _ ⟨hfirst, hsecond⟩ a ha => ⟨hfirst a ha, hsecond a ha⟩

/-- On a backend that honors the contract, a run preserves `inv` and its result satisfies
`first`. -/
theorem Keeps.run {backend : Backend σ} {inv : σ → Prop} (hbackend : backend.Honors c inv)
    {p : Program α} (h : p.Keeps c first) {s : σ} (hinv : inv s) :
    inv (p.run backend s).2 ∧ ∀ a, (p.run backend s).1 = some a → first a := by
  induction p generalizing s with
  | done a => exact ⟨hinv, h⟩
  | poll token next ih => exact ih _ (h _ trivial) hinv
  | call request next ih =>
      obtain ⟨hpermits, hnext⟩ := h
      refine ih _ (hnext _ () ?_) (hbackend.keeps request s hpermits hinv)
      exact fun answer => hbackend.trusts request s answer hpermits hinv
  | endless => exact ⟨hinv, nofun⟩

end Rules

end Program

namespace Action

/-- On every store that gives trusted answers or faults, the action sends permitted requests only
and its results satisfy `returns`. -/
def Keeps (c : Contract) (returns : α → Prop) (a : Action α) : Prop :=
  a.run.Keeps c fun r => ∀ x, r = .ok x → returns x

section Rules

variable {c : Contract} {first : α → Prop} {returns : β → Prop}

theorem keeps_ofExcept {r : Except Fault β} (h : ∀ x, r = .ok x → returns x) :
    (ofExcept r).Keeps c returns :=
  Program.keeps_pure h

theorem keeps_pure {x : β} (h : returns x) : (pure x : Action β).Keeps c returns := by
  apply keeps_ofExcept
  rintro _ ⟨⟩
  exact h

theorem keeps_throw (fault : Fault) : (throw fault : Action β).Keeps c returns :=
  keeps_ofExcept nofun

theorem keeps_fail (failure : Failure) : (fail failure : Action β).Keeps c returns :=
  keeps_throw _

theorem keeps_ofPath {r : Except PathRefusal β} (h : ∀ x, r = .ok x → returns x) :
    (ofPath r).Keeps c returns := by
  cases r with
  | ok x => exact keeps_pure (h x rfl)
  | error refusal => exact keeps_fail _

theorem Keeps.mono {a : Action α} {weaker : α → Prop} (h : a.Keeps c first)
    (hweaker : ∀ x, first x → weaker x) : a.Keeps c weaker :=
  Program.Keeps.mono h fun _ hfirst x hx => hweaker x (hfirst x hx)

/-- Rule for `>>=` on actions. -/
theorem Keeps.bind {a : Action α} {f : α → Action β} (h : a.Keeps c first)
    (hf : ∀ x, first x → (f x).Keeps c returns) : (a >>= f).Keeps c returns := by
  show (a.run >>= ExceptT.bindCont f).Keeps c _
  refine Program.Keeps.bind h ?_
  rintro (fault | x) hfirst
  · exact keeps_throw fault
  · exact hf x (hfirst x rfl)

/-- Rule for `discard`. -/
theorem Keeps.discard {a : Action α} (h : a.Keeps c first) :
    (discard a : Action PUnit).Keeps c (fun _ => True) := by
  refine Program.Keeps.bind h ?_
  rintro (fault | x) _
  · exact keeps_throw fault
  · exact keeps_pure trivial

/-- An action that starts with a `fail` sends nothing. -/
theorem keeps_fail_bind (failure : Failure) (f : α → Action β) :
    (fail failure >>= f).Keeps c returns :=
  keeps_fail failure

theorem keeps_lift {p : Program β} (h : p.Keeps c returns) : (lift p).Keeps c returns :=
  Program.Keeps.bind h fun _ hx => keeps_pure hx

theorem keeps_request {request : Request} (hpermits : c.permits request) :
    (lift (Program.request request)).Keeps c
      (fun r => ∀ answer, r = .ok answer → c.trusts request answer) :=
  keeps_lift (Program.keeps_request hpermits)

theorem Keeps.outcome {a : Action β} (h : a.Keeps c returns) :
    a.outcome.Keeps c (fun r => ∀ x, r = .ok x → returns x) :=
  keeps_lift h

theorem keeps_checkCancelled (token : Option Token) (context : Option String) :
    (checkCancelled token context).Keeps c (fun _ => True) := by
  refine (keeps_lift (Program.keeps_isCancelled token)).bind fun flag _ => ?_
  cases flag with
  | true => exact keeps_fail _
  | false => exact keeps_pure trivial

end Rules

end Action

namespace Recorded

/-- From a record that satisfies `inv`, the program sends permitted requests only, ends with a
record that satisfies `inv`, and its results satisfy `returns`. -/
def Keeps (c : Contract) (inv : ρ → Prop) (returns : α → Prop) (a : Recorded ε ρ α) : Prop :=
  ∀ record, inv record → (a.run.run record).Keeps c fun r => inv r.2 ∧ ∀ x, r.1 = .ok x → returns x

section Rules

variable {c : Contract} {inv : ρ → Prop} {first : α → Prop} {returns : β → Prop}

theorem keeps_pure {x : β} (h : returns x) : (pure x : Recorded ε ρ β).Keeps c inv returns := by
  refine fun _ hinv => Program.keeps_pure ⟨hinv, ?_⟩
  rintro _ ⟨⟩
  exact h

theorem keeps_throw (e : ε) : (throw e : Recorded ε ρ β).Keeps c inv returns :=
  fun _ hinv => Program.keeps_pure ⟨hinv, nofun⟩

/-- A program that starts with a `throw` sends nothing. -/
theorem keeps_throw_bind (e : ε) (f : α → Recorded ε ρ β) :
    ((throw e : Recorded ε ρ α) >>= f).Keeps c inv returns :=
  keeps_throw e

theorem keeps_get : (get : Recorded ε ρ ρ).Keeps c inv inv := by
  refine fun record hinv => Program.keeps_pure ⟨hinv, ?_⟩
  rintro _ ⟨⟩
  exact hinv

theorem keeps_modify {f : ρ → ρ} (h : ∀ record, inv record → inv (f record)) :
    (modify f : Recorded ε ρ PUnit).Keeps c inv (fun _ => True) :=
  fun record hinv => Program.keeps_pure ⟨h record hinv, fun _ _ => trivial⟩

theorem keeps_set {record : ρ} (h : inv record) :
    (set record : Recorded ε ρ PUnit).Keeps c inv (fun _ => True) :=
  fun _ _ => Program.keeps_pure ⟨h, fun _ _ => trivial⟩

/-- Rule for `>>=` with a record. -/
theorem Keeps.bind {a : Recorded ε ρ α} {f : α → Recorded ε ρ β} (h : a.Keeps c inv first)
    (hf : ∀ x, first x → (f x).Keeps c inv returns) : (a >>= f).Keeps c inv returns := by
  intro record hinv
  show ((ExceptT.run a >>= ExceptT.bindCont f).run record).Keeps c _
  rw [StateT.run_bind]
  refine (h record hinv).bind ?_
  rintro ⟨fault | x, record'⟩ ⟨hinv', hfirst⟩
  · exact Program.keeps_pure ⟨hinv', nofun⟩
  · exact hf x (hfirst x rfl) record' hinv'

/-- Rule for `discard` with a record. -/
theorem Keeps.discard {a : Recorded ε ρ α} (h : a.Keeps c inv first) :
    (discard a : Recorded ε ρ PUnit).Keeps c inv (fun _ => True) := by
  intro record hinv
  refine Program.Keeps.bind (h record hinv) ?_
  rintro ⟨e | x, record'⟩ ⟨hinv', -⟩
  · exact Program.keeps_pure ⟨hinv', nofun⟩
  · exact Program.keeps_pure ⟨hinv', fun _ _ => trivial⟩

/-- Rule for `forM`. -/
theorem keeps_forM {f : α → Recorded ε ρ PUnit} {items : List α}
    (hf : ∀ x ∈ items, (f x).Keeps c inv (fun _ => True)) :
    (items.forM f).Keeps c inv (fun _ => True) := by
  induction items with
  | nil => exact keeps_pure trivial
  | cons x rest ih =>
      refine (hf x List.mem_cons_self).bind fun _ _ => ?_
      exact ih fun y hy => hf y (List.mem_cons_of_mem _ hy)

/-- Rule for `Walk.ofAction`: the action leaves the record alone. -/
theorem keeps_ofAction {a : Action β} (h : a.Keeps c returns) :
    (Walk.ofAction a : Walk ρ β).Keeps c inv returns :=
  fun _ hinv => Program.Keeps.bind h fun _ hr => Program.keeps_pure ⟨hinv, hr⟩

/-- Rule for `Walk.collect`. -/
theorem keeps_collect {w : Walk ρ β} {record : ρ}
    (h : w.Keeps c (fun _ => True) (fun _ => True)) :
    (w.collect record).Keeps c (fun _ => True) :=
  Action.keeps_lift ((h record trivial).mono fun _ _ => trivial)

end Rules

end Recorded

end BucketTree
