import BucketTree.Proofs.Store.Answers

/-!
# What a finding rests on

An outcome is a *finding* when it states a fact about the store: a result, or a failure of one of
the classes `notFound`, `alreadyExists` and `notEmpty` (`IsFinding`). Other outcomes, such as a
failed lookup, say nothing about the store.

The exchanges of a run are its requests with their outcomes. An exchange is *tolerable* when a
finding may rest on it (`Exchange.IsTolerable`). A program is *candid* when every run that ends with
a finding has tolerable exchanges only, on every backend (`Program.Candid`). The rules below follow
the ways in which programs are built. The main one is `Program.Candid.bind`: after a result that may
rest on other exchanges, the rest of the program must not end with a finding.
-/

set_option autoImplicit false

namespace BucketTree

variable {α β ρ σ : Type}

/-! ## Exchanges -/

/-- A request together with the outcome that the backend gave it. -/
structure Exchange where
  request : Request
  outcome : Except Fault request.Answer

/-- Well-formed answers: the metadata of an object carry an integer size and a modification time; a
page carries its list of keys, its list of groups, and a continuation token other than the one it
was asked for with, if any. -/
def Request.IsWellFormed : (request : Request) → request.Answer → Prop
  | .head _, metadata => ∃ length time, ∃ size : Nat,
      metadata = some ⟨length, .moment time⟩ ∧ length.toInteger = .ok (size : Int)
  | .list page, answer => ∃ keys groups next,
      answer = some ⟨some keys, some groups, next⟩ ∧ (next = none ∨ next ≠ page.after)
  | _, _ => True

/-- The exchanges that a finding may rest on: a well-formed answer, the absence of an object, and a
copy that the store does not support. -/
inductive Exchange.IsTolerable : Exchange → Prop
  /-- The store gave a well-formed answer. -/
  | answered {request : Request} {answer : request.Answer}
      (hanswer : request.IsWellFormed answer) : IsTolerable ⟨request, .ok answer⟩
  /-- The store said that the object of the request does not exist. A `list` request is about no
  single object. -/
  | absent {request : Request} {fault : Fault} (hobject : ∀ page, request ≠ .list page)
      (habsent : fault.isAbsence = true) : IsTolerable ⟨request, .error fault⟩
  /-- The store does not support the copy; the caller then copies by reading and writing. -/
  | unsupported {source destination : Key} (argument : Option Value) :
      IsTolerable ⟨.copy source destination, .error (.unsupported argument)⟩

/-- An answer in a tolerable exchange is well formed. -/
theorem Exchange.IsTolerable.isWellFormed {request : Request} {answer : request.Answer}
    (h : Exchange.IsTolerable ⟨request, .ok answer⟩) : request.IsWellFormed answer := by
  cases h with
  | answered hanswer => exact hanswer

/-- A remote fault with a status is an absence only for the statuses `notFound` and `unknown`. -/
theorem Fault.status_of_isAbsence {status : CallStatus} {details : String}
    (h : (Fault.remote (some status) details).isAbsence = true) :
    status = .notFound ∨ status = .unknown := by
  cases status with
  | notFound => exact Or.inl rfl
  | unknown => exact Or.inr rfl
  | _ => cases h

/-! ## Findings -/

/-- The failure classes that state a fact about the store: `notFound`, `alreadyExists` and
`notEmpty`. -/
def FailureClass.isFinding : FailureClass → Bool
  | .notFound => true
  | .alreadyExists => true
  | .notEmpty => true
  | _ => false

/-- The failure class of a known failure or of a report; other faults have none. -/
def Fault.failureClass? : Fault → Option FailureClass
  | .known failure => some failure.kind.failureClass
  | .reported report => some report.failureClass
  | _ => none

/-- A finding: a result, or a fault whose failure class states a fact about the store. -/
def IsFinding : Except Fault α → Prop
  | .ok _ => True
  | .error fault => ∃ c ∈ fault.failureClass?, c.isFinding = true

/-- A known failure of any other class is no finding. -/
theorem not_isFinding_known {failure : Failure}
    (h : failure.kind.failureClass.isFinding = false) :
    ¬ IsFinding (.error (.known failure) : Except Fault α) := by
  rintro ⟨_, ⟨⟩, hfinding⟩
  rw [h] at hfinding
  cases hfinding

theorem not_isFinding_misuse (misuse : Misuse) :
    ¬ IsFinding (.error (.misuse misuse) : Except Fault α) := by
  rintro ⟨_, ⟨⟩, -⟩

/-- A `notFound` failure is a finding. -/
theorem isFinding_of_isNotFound {failure : Failure} (h : failure.isNotFound = true) :
    IsFinding (.error (.known failure) : Except Fault α) := by
  refine ⟨_, rfl, ?_⟩
  unfold Failure.isNotFound at h
  split at h
  next hkind => rw [hkind]; rfl
  next => cases h

/-! ## Programs -/

namespace Program

/-- The exchanges of a run from the state `s`, in order. -/
def exchanges (backend : Backend σ) : Program α → σ → List Exchange
  | .done _, _ => []
  | .poll token next, s => (next (backend.isCancelled token s)).exchanges backend s
  | .call request next, s =>
      ⟨request, (backend.answer request s).1⟩ ::
        (next (backend.answer request s).1).exchanges backend (backend.answer request s).2
  | .endless, _ => []

/-- The exchanges of `p >>= f` are those of `p`, then those of `f` on the result of `p`. -/
theorem exchanges_bind (backend : Backend σ) (p : Program α) (f : α → Program β) (s : σ) :
    (p >>= f).exchanges backend s =
      p.exchanges backend s ++
        match p.run backend s with
        | (some a, s) => (f a).exchanges backend s
        | (none, _) => [] := by
  show (p.bind f).exchanges backend s = _
  induction p generalizing s with
  | done a => rfl
  | poll token next ih => exact ih _ s
  | call request next ih => exact congrArg _ (ih _ _)
  | endless => rfl

/-- Every run whose result satisfies `finds` has tolerable exchanges only. -/
def Candid (finds : α → Prop) (p : Program α) : Prop :=
  ∀ (σ : Type) (backend : Backend σ) (s : σ) (a : α), (p.run backend s).1 = some a → finds a →
    ∀ e ∈ p.exchanges backend s, e.IsTolerable

/-- No run has a result that satisfies `finds`. -/
def Avoids (finds : α → Prop) (p : Program α) : Prop :=
  ∀ (σ : Type) (backend : Backend σ) (s : σ) (a : α), (p.run backend s).1 = some a → ¬ finds a

section Rules

variable {first : α → Prop} {finds : β → Prop}

/-- The program `pure b` has no exchanges. -/
theorem candid_pure (b : β) : (pure b : Program β).Candid finds :=
  fun _ _ _ _ _ _ _ he => absurd he List.not_mem_nil

theorem candid_endless : (endless : Program β).Candid finds :=
  fun _ _ _ _ _ _ _ he => absurd he List.not_mem_nil

theorem candid_request (request : Request) :
    (Program.request request).Candid (fun outcome => Exchange.IsTolerable ⟨request, outcome⟩) := by
  rintro σ backend s _ ⟨⟩ htolerable e he
  rw [List.mem_singleton.1 he]
  exact htolerable

theorem candid_isCancelled (token : Option Token) :
    (isCancelled token).Candid (fun _ => True) := by
  cases token with
  | none => exact candid_pure false
  | some name => exact fun _ _ _ _ _ _ _ he => absurd he List.not_mem_nil

theorem avoids_pure {b : β} (h : ¬ finds b) : (pure b : Program β).Avoids finds := by
  rintro σ backend s _ ⟨⟩
  exact h

/-- Rule for `>>=`: after a result of `p` that satisfies `first`, `f` is candid; after any other
result, `f` avoids `finds`. -/
theorem Candid.bind {p : Program α} {f : α → Program β} (hp : p.Candid first)
    (hfirst : ∀ a, first a → (f a).Candid finds)
    (hother : ∀ a, ¬ first a → (f a).Avoids finds) : (p >>= f).Candid finds := by
  intro σ backend s b hb hfinds e he
  rw [run_bind] at hb
  rw [exchanges_bind, List.mem_append] at he
  have hbefore := hp σ backend s
  rcases hrun : p.run backend s with ⟨_ | a, s'⟩
  · rw [hrun] at hb
    cases hb
  · rw [hrun] at hb he hbefore
    -- the first result is of its kind, or the second one would not be of its own
    have ha : first a := by
      by_contra hnot
      exact hother a hnot σ backend s' b hb hfinds
    rcases he with he | he
    · exact hbefore a rfl ha e he
    · exact hfirst a ha σ backend s' b hb hfinds e he

end Rules

end Program

/-! ## Actions -/

namespace Action

/-- The exchanges of an action run from the state `s`. -/
def exchanges (backend : Backend σ) (a : Action α) (s : σ) : List Exchange :=
  a.run.exchanges backend s

/-- Every run of the action that ends with a finding has tolerable exchanges only. -/
def Candid (a : Action α) : Prop := Program.Candid IsFinding a.run

/-- No run of the action ends with a finding. -/
def Avoids (a : Action α) : Prop := Program.Avoids IsFinding a.run

section Rules

variable {first : α → Prop}

theorem candid_ofExcept (r : Except Fault β) : (ofExcept r).Candid := Program.candid_pure r

theorem candid_pure (x : β) : (pure x : Action β).Candid := candid_ofExcept (.ok x)

theorem candid_throw (fault : Fault) : (throw fault : Action β).Candid :=
  candid_ofExcept (.error fault)

theorem candid_fail (failure : Failure) : (fail failure : Action β).Candid := candid_throw _

/-- An action that starts with a `throw` has no exchanges. -/
theorem candid_throw_bind (fault : Fault) (f : α → Action β) :
    ((throw fault : Action α) >>= f).Candid :=
  candid_throw fault

/-- An action that starts with a `fail` has no exchanges. -/
theorem candid_fail_bind (failure : Failure) (f : α → Action β) : (fail failure >>= f).Candid :=
  candid_fail failure

theorem candid_ofPath (r : Except PathRefusal β) : (ofPath r).Candid := by
  cases r with
  | ok x => exact candid_pure x
  | error refusal => exact candid_fail _

theorem avoids_ofExcept {r : Except Fault β} (h : ¬ IsFinding r) : (ofExcept r).Avoids :=
  Program.avoids_pure h

theorem avoids_throw {fault : Fault} (h : ¬ IsFinding (.error fault : Except Fault β)) :
    (throw fault : Action β).Avoids :=
  avoids_ofExcept h

theorem avoids_fail {failure : Failure} (h : failure.kind.failureClass.isFinding = false) :
    (fail failure : Action β).Avoids :=
  avoids_throw (not_isFinding_known h)

/-- Whether a fault is a finding does not depend on the result type of the action. -/
theorem not_isFinding_of_error {fault : Fault} (h : ¬ IsFinding (.error fault : Except Fault α)) :
    ¬ IsFinding (.error fault : Except Fault β) := h

/-- Rule for `>>=` on actions. -/
theorem Candid.bind {a : Action α} {f : α → Action β} (ha : a.Candid) (hf : ∀ x, (f x).Candid) :
    (a >>= f).Candid := by
  show Program.Candid IsFinding (a.run >>= ExceptT.bindCont f)
  refine Program.Candid.bind ha ?_ ?_
  · rintro (fault | x) _
    · exact candid_throw fault
    · exact hf x
  · rintro (fault | x) hnot
    · exact avoids_throw (not_isFinding_of_error hnot)
    · exact absurd trivial hnot

/-- Rule for `discard`. -/
theorem Candid.discard {a : Action α} (ha : a.Candid) : (discard a : Action PUnit).Candid :=
  ha.bind fun _ => candid_pure PUnit.unit

/-- Rule for `lift`: the results of a lifted program are findings. -/
theorem candid_lift {p : Program β} (hp : p.Candid fun _ => True) : (lift p).Candid :=
  Program.Candid.bind hp (fun _ _ => Program.candid_pure _) fun _ hnot => absurd trivial hnot

/-- Rule for `lift p >>= f`: after a result of `p` that satisfies `first`, `f` is candid; after any
other result, `f` avoids findings. -/
theorem candid_lift_bind {p : Program α} {f : α → Action β} (hp : p.Candid first)
    (hfirst : ∀ x, first x → (f x).Candid) (hother : ∀ x, ¬ first x → (f x).Avoids) :
    (lift p >>= f).Candid := by
  have hrun : (lift p >>= f).run = p >>= fun x => (f x).run :=
    bind_assoc p (fun x => pure (Except.ok x)) (ExceptT.bindCont f)
  show Program.Candid IsFinding (lift p >>= f).run
  rw [hrun]
  exact Program.Candid.bind hp hfirst hother

/-- Rule for `a.outcome >>= f`: after a finding of `a`, `f` is candid; after any other outcome, `f`
avoids findings. -/
theorem Candid.outcome_bind {a : Action α} {f : Except Fault α → Action β} (ha : a.Candid)
    (hfinding : ∀ r, IsFinding r → (f r).Candid) (hother : ∀ r, ¬ IsFinding r → (f r).Avoids) :
    (a.outcome >>= f).Candid :=
  candid_lift_bind ha hfinding hother

theorem candid_checkCancelled (token : Option Token) (context : Option String) :
    (checkCancelled token context).Candid := by
  refine (candid_lift (Program.candid_isCancelled token)).bind fun flag => ?_
  cases flag with
  | true => exact candid_fail _
  | false => exact candid_pure ()

end Rules

end Action

/-! ## Walks -/

namespace Walk

/-- From every record, a run of the walk that ends with a finding has tolerable exchanges only. -/
def Candid (w : Walk ρ α) : Prop :=
  ∀ record, Program.Candid (fun r => IsFinding r.1) (w.run.run record)

/-- From every record, no run of the walk ends with a finding. -/
def Avoids (w : Walk ρ α) : Prop :=
  ∀ record, Program.Avoids (fun r => IsFinding r.1) (w.run.run record)

section Rules

variable {first : α → Prop}

theorem candid_pure (x : β) : (pure x : Walk ρ β).Candid := fun _ => Program.candid_pure _

theorem candid_throw (fault : Fault) : (throw fault : Walk ρ β).Candid :=
  fun _ => Program.candid_pure _

theorem candid_modify (f : ρ → ρ) : (modify f : Walk ρ PUnit).Candid :=
  fun _ => Program.candid_pure _

theorem avoids_throw {fault : Fault} (h : ¬ IsFinding (.error fault : Except Fault β)) :
    (throw fault : Walk ρ β).Avoids := by
  rintro record σ backend s _ ⟨⟩
  exact h

/-- Rule for `>>=` on walks. -/
theorem Candid.bind {w : Walk ρ α} {f : α → Walk ρ β} (hw : w.Candid) (hf : ∀ x, (f x).Candid) :
    (w >>= f).Candid := by
  intro record
  show Program.Candid _ ((ExceptT.run w >>= ExceptT.bindCont f).run record)
  rw [StateT.run_bind]
  refine Program.Candid.bind (hw record) ?_ ?_
  · rintro ⟨fault | x, record'⟩ _
    · exact candid_throw fault record'
    · exact hf x record'
  · rintro ⟨fault | x, record'⟩ hnot
    · exact avoids_throw (Action.not_isFinding_of_error hnot) record'
    · exact absurd trivial hnot

/-- Rule for `get >>= f`: `f record` is candid for every record. -/
theorem candid_get_bind {f : ρ → Walk ρ β} (hf : ∀ record, (f record).Candid) :
    (get >>= f).Candid :=
  fun record => hf record record

theorem avoids_get_bind {f : ρ → Walk ρ β} (hf : ∀ record, (f record).Avoids) :
    (get >>= f).Avoids :=
  fun record => hf record record

theorem candid_ofAction {a : Action β} (ha : a.Candid) : (ofAction a : Walk ρ β).Candid := by
  intro record
  refine Program.Candid.bind ha (fun r _ => Program.candid_pure (r, record)) ?_
  rintro r hnot σ backend s _ ⟨⟩
  exact hnot

/-- Rule for a lifted program followed by `f` in a walk, as for actions. -/
theorem candid_lift_bind {p : Program α} {f : α → Walk ρ β} (hp : p.Candid first)
    (hfirst : ∀ x, first x → (f x).Candid) (hother : ∀ x, ¬ first x → (f x).Avoids) :
    (ofAction (Action.lift p) >>= f).Candid := by
  intro record
  have hrun : ((ofAction (Action.lift p) >>= f : Walk ρ β).run.run record) =
      p >>= fun x => (f x).run.run record := by
    show ((p >>= fun x => pure (Except.ok x)) >>= fun r => pure (r, record)) >>= _ = _
    rw [bind_assoc, bind_assoc]
    rfl
  rw [hrun]
  refine Program.Candid.bind hp ?_ ?_
  · exact fun x hx => hfirst x hx record
  · exact fun x hx => hother x hx record

/-- Rule for the outcome of an action followed by `f` in a walk. -/
theorem candid_outcome_bind {a : Action α} {f : Except Fault α → Walk ρ β} (ha : a.Candid)
    (hfinding : ∀ r, IsFinding r → (f r).Candid) (hother : ∀ r, ¬ IsFinding r → (f r).Avoids) :
    (ofAction a.outcome >>= f).Candid :=
  candid_lift_bind ha hfinding hother

/-- Rule for `forM`. -/
theorem candid_forM {f : α → Walk ρ PUnit} {items : List α} (hf : ∀ x, (f x).Candid) :
    (items.forM f).Candid := by
  induction items with
  | nil => exact candid_pure PUnit.unit
  | cons x rest ih => exact (hf x).bind fun _ => ih

/-- Rule for `w.collect record >>= f`: after a finding of the walk, `f` is candid; after any other
outcome, `f` avoids findings. -/
theorem Candid.collect_bind {w : Walk ρ α} {record : ρ} {f : Except Fault α × ρ → Action β}
    (hw : w.Candid) (hfinding : ∀ r, IsFinding r.1 → (f r).Candid)
    (hother : ∀ r, ¬ IsFinding r.1 → (f r).Avoids) : (w.collect record >>= f).Candid :=
  Action.candid_lift_bind (hw record) hfinding hother

end Rules

end Walk

end BucketTree
