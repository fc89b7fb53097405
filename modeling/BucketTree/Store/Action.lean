import BucketTree.Store.Program

/-!
# Actions

Programs that may end early. An `Action` ends with a fault. A `Walk` also keeps a record that
outlives a fault, so that an operation over many objects can report its progress. Both are monads
over programs; `Action.run_bind` and `Walk.run_bind` describe sequential composition on a backend.
-/

set_option autoImplicit false

namespace BucketTree

/-- A program that may end with a fault. -/
abbrev Action := ExceptT Fault Program

/-- A program with a state of type `σ` that may end with an `ε` and keeps the state then. -/
abbrev Recorded (ε σ : Type) := ExceptT ε (StateT σ Program)

/-- An action over many objects that records its progress. -/
abbrev Walk (σ : Type) := Recorded Fault σ

namespace Action

variable {α β σ : Type}

/-- A program as an action. -/
def lift (p : Program α) : Action α := ExceptT.lift p

/-- Ends with a failure. -/
def fail (failure : Failure) : Action α := throw (.known failure)

/-- The result of an action or the fault that ended it. -/
def outcome (a : Action α) : Action (Except Fault α) := lift a.run

/-- A given result or fault. -/
def ofExcept (r : Except Fault α) : Action α := ExceptT.mk (pure r)

/-- The result of an operation without requests that may be misused. -/
def ofMisuse (r : Except Misuse α) : Action α := ofExcept (r.mapError .misuse)

/-- The result of an operation without requests. A refused path is a failure. -/
def ofPath (r : Except PathRefusal α) : Action α :=
  match r with
  | .ok a => pure a
  | .error refusal => fail (.ofRefusal refusal)

/-- Ends with a failure if the token is cancelled. -/
def checkCancelled (token : Option Token) (context : Option String) : Action Unit := do
  if ← lift (Program.isCancelled token) then fail (.cancelled context)

/-- Performs an action on a backend. -/
def perform (backend : Backend σ) (a : Action α) (s : σ) : Option (Except Fault α) × σ :=
  a.run.run backend s

variable (backend : Backend σ)

@[simp]
theorem run_pure (a : α) (s : σ) :
    (pure a : Action α).perform backend s = (some (.ok a), s) := rfl

@[simp]
theorem run_throw (fault : Fault) (s : σ) :
    (throw fault : Action α).perform backend s = (some (.error fault), s) := rfl

@[simp]
theorem run_fail (failure : Failure) (s : σ) :
    (fail failure : Action α).perform backend s = (some (.error (.known failure)), s) := rfl

/-- Runs two actions in turn. A fault of the first one ends the run. -/
theorem run_bind (a : Action α) (f : α → Action β) (s : σ) :
    (a >>= f).perform backend s =
      match a.perform backend s with
      | (some (.ok x), s) => (f x).perform backend s
      | (some (.error fault), s) => (some (.error fault), s)
      | (none, s) => (none, s) := by
  show (ExceptT.run a >>= ExceptT.bindCont f).run backend s = _
  rw [Program.run_bind]
  unfold perform
  rcases (ExceptT.run a).run backend s with ⟨_ | (_ | _), _⟩ <;> rfl

/-- A lifted program does not fail. -/
theorem run_lift (p : Program α) (s : σ) :
    (lift p).perform backend s = ((p.run backend s).1.map .ok, (p.run backend s).2) := by
  show (p >>= fun a => pure (Except.ok a)).run backend s = _
  rw [Program.run_bind]
  rcases p.run backend s with ⟨_ | _, _⟩ <;> rfl

end Action

namespace Walk

variable {α β ρ σ : Type}

/-- An action as a step of a walk. -/
def ofAction (a : Action α) : Walk ρ α := ExceptT.mk (StateT.lift a.run)

/-- Performs a walk from a record, and returns its outcome with the final record. -/
def collect (w : Walk ρ α) (record : ρ) : Action (Except Fault α × ρ) :=
  Action.lift (w.run.run record)

/-- Performs a walk on a backend. -/
def perform (backend : Backend σ) (w : Walk ρ α) (record : ρ) (s : σ) :
    Option (Except Fault α × ρ) × σ :=
  (w.run.run record).run backend s

variable (backend : Backend σ)

@[simp]
theorem run_pure (a : α) (record : ρ) (s : σ) :
    (pure a : Walk ρ α).perform backend record s = (some (.ok a, record), s) := rfl

@[simp]
theorem run_throw (fault : Fault) (record : ρ) (s : σ) :
    (throw fault : Walk ρ α).perform backend record s = (some (.error fault, record), s) := rfl

@[simp]
theorem run_modify (f : ρ → ρ) (record : ρ) (s : σ) :
    (modify f : Walk ρ PUnit).perform backend record s = (some (.ok ⟨⟩, f record), s) := rfl

/-- Runs two walks in turn. A fault of the first one ends the run and keeps the record. -/
theorem run_bind (w : Walk ρ α) (f : α → Walk ρ β) (record : ρ) (s : σ) :
    (w >>= f).perform backend record s =
      match w.perform backend record s with
      | (some (.ok x, record), s) => (f x).perform backend record s
      | (some (.error fault, record), s) => (some (.error fault, record), s)
      | (none, s) => (none, s) := by
  show ((ExceptT.run w >>= ExceptT.bindCont f).run record).run backend s = _
  rw [StateT.run_bind, Program.run_bind]
  unfold perform
  rcases ((ExceptT.run w).run record).run backend s with ⟨_ | ⟨_ | _, _⟩, _⟩ <;> rfl

/-- A lifted action keeps the record. -/
theorem run_ofAction (a : Action α) (record : ρ) (s : σ) :
    (ofAction a : Walk ρ α).perform backend record s =
      ((a.perform backend s).1.map fun r => (r, record), (a.perform backend s).2) := by
  show (a.run >>= fun r => pure (r, record)).run backend s = _
  rw [Program.run_bind]
  unfold Action.perform
  rcases (ExceptT.run a).run backend s with ⟨_ | _, _⟩ <;> rfl

end Walk

end BucketTree
