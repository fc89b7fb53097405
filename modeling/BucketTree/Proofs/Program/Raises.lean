import BucketTree.Proofs.Program.Contract

/-!
# What a program raises

A program `Raises` the faults of a predicate when every run of it, against a store that gives
trusted answers or faults, ends with a result, with such a fault, or not at all, and sends only what
the contract permits. The rules follow the ways in which programs are built. A fault of one part is
a fault of the whole, except after `outcome` (`Raises.outcome_bind`), where the next part is given
the fault and may use that it satisfies the predicate.
-/

set_option autoImplicit false

namespace BucketTree

variable {α β ε ρ σ : Type}

/-- A result has no error, so every condition on the error holds. -/
theorem allows_of_ok {allows : ε → Prop} {x : α} (e : ε) (h : (.ok x : Except ε α) = .error e) :
    allows e := by
  cases h

namespace Action

/-- On every store that gives trusted answers or faults, the action sends permitted requests only,
and `allows` holds for every fault it ends with. -/
def Raises (c : Contract) (allows : Fault → Prop) (a : Action α) : Prop :=
  a.run.Keeps c fun r => ∀ fault, r = .error fault → allows fault

section Rules

variable {c : Contract} {allows first : Fault → Prop}

theorem raises_ofExcept {r : Except Fault β} (h : ∀ fault, r = .error fault → allows fault) :
    (ofExcept r).Raises c allows :=
  Program.keeps_pure h

theorem raises_pure (x : β) : (pure x : Action β).Raises c allows := raises_ofExcept allows_of_ok

theorem raises_throw {fault : Fault} (h : allows fault) :
    (throw fault : Action β).Raises c allows := by
  apply raises_ofExcept
  rintro _ ⟨⟩
  exact h

theorem raises_fail {failure : Failure} (h : allows (.known failure)) :
    (fail failure : Action β).Raises c allows :=
  raises_throw h

/-- Rule for an action that starts with a `fail`. -/
theorem raises_fail_bind {failure : Failure} (h : allows (.known failure)) (f : α → Action β) :
    (fail failure >>= f).Raises c allows :=
  raises_fail h

theorem raises_ofPath {r : Except PathRefusal β}
    (h : ∀ refusal, r = .error refusal → allows (.known (.ofRefusal refusal))) :
    (ofPath r).Raises c allows := by
  cases r with
  | ok x => exact raises_pure x
  | error refusal => exact raises_fail (h refusal rfl)

theorem Raises.mono {a : Action α} (h : a.Raises c first)
    (hfirst : ∀ fault, first fault → allows fault) : a.Raises c allows :=
  Program.Keeps.mono h fun _ hr fault hfault => hfirst fault (hr fault hfault)

/-- Rule for `>>=`, where `f` may use what the contract says about the results of `a`. -/
theorem Raises.keeps_bind {a : Action α} {f : α → Action β} {returns : α → Prop}
    (h : a.Raises c allows) (hreturns : a.Keeps c returns)
    (hf : ∀ x, returns x → (f x).Raises c allows) : (a >>= f).Raises c allows := by
  show (a.run >>= ExceptT.bindCont f).Keeps c _
  refine Program.Keeps.bind (Program.Keeps.and h hreturns) ?_
  rintro (fault | x) ⟨hfault, hx⟩
  · exact raises_throw (hfault fault rfl)
  · exact hf x (hx x rfl)

/-- Rule for `>>=`. -/
theorem Raises.bind {a : Action α} {f : α → Action β} (h : a.Raises c allows)
    (hf : ∀ x, (f x).Raises c allows) : (a >>= f).Raises c allows := by
  show (a.run >>= ExceptT.bindCont f).Keeps c _
  refine Program.Keeps.bind h ?_
  rintro (fault | x) hfault
  · exact raises_throw (hfault fault rfl)
  · exact hf x

/-- Rule for `discard`. -/
theorem Raises.discard {a : Action α} (h : a.Raises c allows) :
    (discard a : Action PUnit).Raises c allows :=
  h.bind fun _ => raises_pure _

/-- A lifted program raises no fault. -/
theorem raises_lift {p : Program β} {returns : β → Prop} (h : p.Keeps c returns) :
    (lift p).Raises c allows :=
  Program.Keeps.bind h fun x _ => raises_pure x

/-- Rule for `lift p >>= f`. -/
theorem raises_lift_bind {p : Program α} {f : α → Action β} {returns : α → Prop}
    (h : p.Keeps c returns) (hf : ∀ x, returns x → (f x).Raises c allows) :
    (lift p >>= f).Raises c allows := by
  have hrun : (lift p >>= f).run = p >>= fun x => (f x).run :=
    bind_assoc p (fun x => pure (Except.ok x)) (ExceptT.bindCont f)
  show Program.Keeps c _ (lift p >>= f).run
  rw [hrun]
  exact Program.Keeps.bind h hf

/-- Rule for a request followed by `f`: an answer of the store is a trusted one. -/
theorem raises_request_bind {request : Request} {f : Except Fault request.Answer → Action β}
    (hpermits : c.permits request)
    (hf : ∀ outcome, (∀ answer, outcome = .ok answer → c.trusts request answer) →
      (f outcome).Raises c allows) :
    (lift (Program.request request) >>= f).Raises c allows :=
  raises_lift_bind (Program.keeps_request hpermits) hf

/-- Rule for `a.outcome >>= f`: the fault that `f` is given is one that `a` may raise. -/
theorem Raises.outcome_bind {a : Action α} {f : Except Fault α → Action β} (h : a.Raises c first)
    (hf : ∀ r, (∀ fault, r = .error fault → first fault) → (f r).Raises c allows) :
    (a.outcome >>= f).Raises c allows :=
  raises_lift_bind h hf

theorem raises_checkCancelled {token : Option Token} {context : Option String}
    (h : allows (.known (.cancelled context))) :
    (checkCancelled token context).Raises c allows := by
  refine raises_lift_bind (Program.keeps_isCancelled token) fun flag _ => ?_
  cases flag with
  | true => exact raises_fail h
  | false => exact raises_pure ()

/-- In an environment that gives trusted answers or faults, `allows` holds for every fault of the
action. -/
theorem Raises.ensures {env : Environment σ} {a : Action α} (h : a.Raises c allows)
    (henv : ∀ request s outcome s', env.answers request s outcome s' →
      ∀ answer, outcome = .ok answer → c.trusts request answer) (s : σ) :
    a.Ensures env (fun request _ => c.permits request)
      (fun r _ => ∀ fault, r = some (.error fault) → allows fault) s :=
  Program.Ensures.mono
    (Program.Keeps.ensures
      (fun request s outcome s' _ _ hanswer => ⟨trivial, henv request s outcome s' hanswer⟩) h
      trivial)
    fun _ _ hr fault hfault => hr.2 _ hfault fault rfl

end Rules

end Action

namespace Recorded

/-- From this record, the program sends permitted requests only, and `allows` holds for every error
it ends with. -/
def RaisesFrom (c : Contract) (allows : ε → Prop) (record : ρ) (a : Recorded ε ρ α) : Prop :=
  (a.run.run record).Keeps c fun r => ∀ e, r.1 = .error e → allows e

/-- The predicate `RaisesFrom` for every record. -/
def Raises (c : Contract) (allows : ε → Prop) (a : Recorded ε ρ α) : Prop :=
  ∀ record, a.RaisesFrom c allows record

section Rules

variable {c : Contract} {allows : ε → Prop}

theorem raises_pure (x : β) : (pure x : Recorded ε ρ β).Raises c allows :=
  fun _ => Program.keeps_pure allows_of_ok

theorem raises_throw {e : ε} (h : allows e) : (throw e : Recorded ε ρ β).Raises c allows := by
  refine fun _ => Program.keeps_pure ?_
  rintro _ ⟨⟩
  exact h

theorem raises_modify (f : ρ → ρ) : (modify f : Recorded ε ρ PUnit).Raises c allows :=
  fun _ => Program.keeps_pure allows_of_ok

theorem raises_set (record : ρ) : (set record : Recorded ε ρ PUnit).Raises c allows :=
  fun _ => Program.keeps_pure allows_of_ok

/-- Rule for `get >>= f`. -/
theorem raisesFrom_get_bind {record : ρ} {f : ρ → Recorded ε ρ β}
    (hf : (f record).RaisesFrom c allows record) : (get >>= f).RaisesFrom c allows record :=
  hf

theorem raises_get_bind {f : ρ → Recorded ε ρ β} (hf : ∀ record, (f record).Raises c allows) :
    (get >>= f).Raises c allows :=
  fun record => raisesFrom_get_bind (hf record record)

theorem RaisesFrom.mono {a : Recorded ε ρ α} {first : ε → Prop} {record : ρ}
    (h : a.RaisesFrom c first record) (hfirst : ∀ e, first e → allows e) :
    a.RaisesFrom c allows record :=
  Program.Keeps.mono h fun _ hr e he => hfirst e (hr e he)

theorem Raises.mono {a : Recorded ε ρ α} {first : ε → Prop} (h : a.Raises c first)
    (hfirst : ∀ e, first e → allows e) : a.Raises c allows :=
  fun record => (h record).mono hfirst

/-- Rule for `>>=` with a record. -/
theorem RaisesFrom.bind {a : Recorded ε ρ α} {f : α → Recorded ε ρ β} {record : ρ}
    (h : a.RaisesFrom c allows record) (hf : ∀ x, (f x).Raises c allows) :
    (a >>= f).RaisesFrom c allows record := by
  show ((ExceptT.run a >>= ExceptT.bindCont f).run record).Keeps c _
  rw [StateT.run_bind]
  refine Program.Keeps.bind h ?_
  rintro ⟨e | x, record'⟩ he
  · exact raises_throw (he e rfl) record'
  · exact hf x record'

/-- Rule for `a >>= f` where `a` sends nothing and returns `x`. -/
theorem raisesFrom_pure_bind {a : Recorded ε ρ α} {f : α → Recorded ε ρ β} {record record' : ρ}
    {x : α} (h : a.run.run record = pure (.ok x, record'))
    (hf : (f x).RaisesFrom c allows record') : (a >>= f).RaisesFrom c allows record := by
  show ((ExceptT.run a >>= ExceptT.bindCont f).run record).Keeps c _
  rw [StateT.run_bind, h, pure_bind]
  exact hf

/-- Rule for `a >>= f` where `a` sends nothing and throws `e`. -/
theorem raisesFrom_throw_bind {a : Recorded ε ρ α} {f : α → Recorded ε ρ β} {record record' : ρ}
    {e : ε} (h : a.run.run record = pure (.error e, record')) (he : allows e) :
    (a >>= f).RaisesFrom c allows record := by
  show ((ExceptT.run a >>= ExceptT.bindCont f).run record).Keeps c _
  rw [StateT.run_bind, h, pure_bind]
  exact raises_throw he record'

theorem Raises.bind {a : Recorded ε ρ α} {f : α → Recorded ε ρ β} (h : a.Raises c allows)
    (hf : ∀ x, (f x).Raises c allows) : (a >>= f).Raises c allows :=
  fun record => (h record).bind hf

/-- Rule for `discard` with a record. -/
theorem RaisesFrom.discard {a : Recorded ε ρ α} {record : ρ} (h : a.RaisesFrom c allows record) :
    (discard a : Recorded ε ρ PUnit).RaisesFrom c allows record :=
  h.bind fun _ => raises_pure _

theorem Raises.discard {a : Recorded ε ρ α} (h : a.Raises c allows) :
    (discard a : Recorded ε ρ PUnit).Raises c allows :=
  fun record => (h record).discard

/-- Rule for `forM`. -/
theorem raises_forM {f : α → Recorded ε ρ PUnit} {items : List α}
    (hf : ∀ x, (f x).Raises c allows) : (items.forM f).Raises c allows := by
  induction items with
  | nil => exact raises_pure PUnit.unit
  | cons x rest ih => exact (hf x).bind fun _ => ih

/-- Rule for `Walk.ofAction`. -/
theorem raises_ofAction {allows : Fault → Prop} {a : Action β} (h : a.Raises c allows) :
    (Walk.ofAction a : Walk ρ β).Raises c allows :=
  fun _ => Program.Keeps.bind h fun _ hr => Program.keeps_pure hr

/-- Rule for a lifted program followed by `f` in a walk. -/
theorem raises_lift_bind {allows : Fault → Prop} {p : Program α} {f : α → Walk ρ β}
    {returns : α → Prop} (h : p.Keeps c returns) (hf : ∀ x, returns x → (f x).Raises c allows) :
    (Walk.ofAction (Action.lift p) >>= f).Raises c allows := by
  intro record
  have hrun : ((Walk.ofAction (Action.lift p) >>= f : Walk ρ β).run.run record) =
      p >>= fun x => (f x).run.run record := by
    show ((p >>= fun x => pure (Except.ok x)) >>= fun r => pure (r, record)) >>= _ = _
    rw [bind_assoc, bind_assoc]
    rfl
  unfold RaisesFrom
  rw [hrun]
  exact Program.Keeps.bind h fun x hx => hf x hx record

/-- Rule for the outcome of an action followed by `f` in a walk: the fault that `f` is given is one
that the action may raise. -/
theorem raises_outcome_bind {first allows : Fault → Prop} {a : Action α}
    {f : Except Fault α → Walk ρ β} (h : a.Raises c first)
    (hf : ∀ r, (∀ fault, r = .error fault → first fault) → (f r).Raises c allows) :
    (Walk.ofAction a.outcome >>= f).Raises c allows :=
  raises_lift_bind h hf

/-- Rule for `w.collect record >>= f`: the fault that `f` is given is one that the walk may
raise. -/
theorem Raises.collect_bind {first allows : Fault → Prop} {w : Walk ρ α} {record : ρ}
    {f : Except Fault α × ρ → Action β} (h : w.Raises c first)
    (hf : ∀ r, (∀ fault, r.1 = .error fault → first fault) → (f r).Raises c allows) :
    (w.collect record >>= f).Raises c allows :=
  Action.raises_lift_bind (h record) hf

end Rules

end Recorded

end BucketTree
