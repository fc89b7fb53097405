import BucketTree.Proofs.Program.Ensures

/-!
# Programs that come to an end

A program halts when it gives up no walk, for every sequence of answers. Then every run of it has a
result on every backend (`Program.Halts.exists_run`), and in every environment
(`Program.Halts.ends`).
-/

set_option autoImplicit false

namespace BucketTree

variable {α β ε ρ σ : Type}

namespace Program

/-- The program has a result for every sequence of answers. -/
def Halts : Program α → Prop
  | .done _ => True
  | .poll _ next => ∀ flag, (next flag).Halts
  | .call _ next => ∀ outcome, (next outcome).Halts
  | .endless => False

theorem halts_pure (a : α) : (pure a : Program α).Halts := trivial

theorem halts_request (q : Request) : (request q).Halts := fun _ => trivial

theorem halts_isCancelled (token : Option Token) : (isCancelled token).Halts := by
  cases token with
  | none => exact halts_pure false
  | some name => exact fun _ => trivial

theorem Halts.bind {p : Program α} {f : α → Program β} (h : p.Halts) (hf : ∀ a, (f a).Halts) :
    (p >>= f).Halts := by
  show (p.bind f).Halts
  induction p with
  | done a => exact hf a
  | poll token next ih => exact fun flag => ih flag (h flag)
  | call request next ih => exact fun outcome => ih outcome (h outcome)
  | endless => exact h.elim

/-- A program that halts has a result on every backend. -/
theorem Halts.exists_run {p : Program α} (h : p.Halts) (backend : Backend σ) (s : σ) :
    ∃ a s', p.run backend s = (some a, s') := by
  induction p generalizing s with
  | done a => exact ⟨a, s, rfl⟩
  | poll token next ih => exact ih _ (h _) s
  | call request next ih => exact ih _ (h _) _
  | endless => exact h.elim

/-- A program that halts ensures a result in every environment. -/
theorem Halts.ends {env : Environment σ} {p : Program α} (h : p.Halts) (s : σ) :
    p.Ensures env (fun _ _ => True) (fun r _ => r ≠ none) s := by
  induction p generalizing s with
  | done a => exact Option.some_ne_none a
  | poll token next ih => exact fun flag _ => ih flag (h flag) s
  | call request next ih => exact ⟨trivial, fun outcome s' _ => ih outcome (h outcome) s'⟩
  | endless => exact h.elim

end Program

namespace Action

/-- The action has a result or a fault for every sequence of answers. -/
def Halts (a : Action α) : Prop := Program.Halts a.run

/-- An action that halts has an outcome on every backend. -/
theorem Halts.exists_perform {a : Action α} (h : a.Halts) (backend : Backend σ) (s : σ) :
    ∃ outcome s', a.perform backend s = (some outcome, s') :=
  Program.Halts.exists_run h backend s

theorem halts_ofExcept (r : Except Fault α) : (ofExcept r).Halts := Program.halts_pure r

theorem halts_pure (a : α) : (pure a : Action α).Halts := Program.halts_pure _

theorem halts_throw (fault : Fault) : (throw fault : Action α).Halts := Program.halts_pure _

/-- An action that starts with a `throw` halts. -/
theorem halts_throw_bind (fault : Fault) (f : α → Action β) : (throw fault >>= f).Halts :=
  Program.halts_pure _

theorem halts_fail (failure : Failure) : (fail failure : Action α).Halts := Program.halts_pure _

theorem Halts.bind {a : Action α} {f : α → Action β} (h : a.Halts) (hf : ∀ x, (f x).Halts) :
    (a >>= f).Halts := by
  show (a.run >>= ExceptT.bindCont f).Halts
  refine Program.Halts.bind h ?_
  rintro (fault | x)
  · exact Program.halts_pure _
  · exact hf x

theorem halts_lift {p : Program α} (h : p.Halts) : (lift p).Halts :=
  Program.Halts.bind h fun _ => Program.halts_pure _

theorem halts_request (q : Request) : (lift (Program.request q)).Halts :=
  halts_lift (Program.halts_request q)

theorem halts_ofPath (r : Except PathRefusal α) : (ofPath r).Halts := by
  cases r with
  | ok x => exact halts_pure x
  | error refusal => exact halts_fail _

theorem Halts.outcome {a : Action α} (h : a.Halts) : a.outcome.Halts := halts_lift h

theorem halts_checkCancelled (token : Option Token) (context : Option String) :
    (checkCancelled token context).Halts := by
  refine (halts_lift (Program.halts_isCancelled token)).bind fun flag => ?_
  cases flag with
  | true => exact halts_fail _
  | false => exact halts_pure ()

end Action

namespace Recorded

/-- From every record, the program has a result or an error for every sequence of answers. -/
def Halts (a : Recorded ε ρ α) : Prop := ∀ record, Program.Halts (a.run.run record)

theorem halts_pure (x : α) : Halts (pure x : Recorded ε ρ α) := fun _ => trivial

theorem halts_throw (e : ε) : Halts (throw e : Recorded ε ρ α) := fun _ => trivial

/-- A program that starts with a `throw` halts. -/
theorem halts_throw_bind (e : ε) (f : α → Recorded ε ρ β) : Halts (throw e >>= f) :=
  fun _ => trivial

theorem halts_get : Halts (get : Recorded ε ρ ρ) := fun _ => trivial

theorem halts_set (record : ρ) : Halts (set record : Recorded ε ρ PUnit) := fun _ => trivial

theorem halts_modify (f : ρ → ρ) : Halts (modify f : Recorded ε ρ PUnit) := fun _ => trivial

theorem Halts.bind {a : Recorded ε ρ α} {f : α → Recorded ε ρ β} (h : Halts a)
    (hf : ∀ x, Halts (f x)) : Halts (a >>= f) := by
  intro record
  show ((ExceptT.run a >>= ExceptT.bindCont f).run record).Halts
  rw [StateT.run_bind]
  refine Program.Halts.bind (h record) ?_
  rintro ⟨e | x, record'⟩
  · exact Program.halts_pure _
  · exact hf x record'

/-- Rule for `discard`. -/
theorem Halts.discard {a : Recorded ε ρ α} (h : Halts a) :
    Halts (discard a : Recorded ε ρ PUnit) :=
  h.bind fun _ => halts_pure _

theorem halts_ofAction {a : Action α} (h : a.Halts) : Halts (Walk.ofAction a : Walk ρ α) :=
  fun _ => Program.Halts.bind h fun _ => Program.halts_pure _

/-- Rule for `forM`. -/
theorem halts_forM {f : α → Recorded ε ρ PUnit} (hf : ∀ x, Halts (f x)) (items : List α) :
    Halts (items.forM f) := by
  induction items with
  | nil => exact halts_pure _
  | cons x rest ih => exact (hf x).bind fun _ => ih

end Recorded

end BucketTree
