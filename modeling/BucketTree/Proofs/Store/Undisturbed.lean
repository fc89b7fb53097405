import BucketTree.Proofs.Store.Answers

/-!
# Undisturbed runs

Whether a store fails depends on its state and on the request. So a run without faults is a property
of the run: each of its requests is answered as `Bucket.Answers` says (`Program.Undisturbed`). In an
undisturbed run a program sends and ends as it ensures in the environment
(`Program.Ensures.run_undisturbed`). On a store with loud faults a run is undisturbed when each
answer is a result or an absence (`Program.undisturbed_of_served`).

For a token that stays unset, `Environment.unset` is the environment in which every check of it
passes.
-/

set_option autoImplicit false

namespace BucketTree

variable {α τ : Type}

/-- No fault is admitted. A request for a missing object still fails with `notFound`. -/
def noFaults (_ : Request) (_ : Fault) : Prop := False

theorem loud_noFaults : Loud noFaults := fun _ _ h => h.elim

/-- An outcome that is a result or an absence does not depend on the admitted loud faults. -/
theorem Bucket.Answers.of_served {fails fails' : Request → Fault → Prop} (hloud : Loud fails)
    {request : Request} {b b' : Bucket} {outcome : Except Fault request.Answer}
    (h : Bucket.Answers fails request b outcome b')
    (hserved : ∀ fault, outcome = .error fault → fault.isAbsence = true ∨ fails' request fault) :
    Bucket.Answers fails' request b outcome b' := by
  cases h with
  | failed hfault =>
      rcases hserved _ rfl with habsence | hfault'
      · rw [hloud _ _ hfault] at habsence
        cases habsence
      · exact .failed hfault'
  | absent hneeds hkey => exact .absent hneeds hkey
  | head hkey => exact .head hkey
  | get hkey => exact .get hkey
  | put hcontent hstored => exact .put hcontent hstored
  | delete hkey herased => exact .delete hkey herased
  | copy hkey hstored => exact .copy hkey hstored
  | list hsize => exact .list hsize
  | openRange hkey => exact .openRange hkey

namespace Program

variable {backend : Backend τ} {view : τ → Bucket} {fails : Request → Fault → Prop}

/-- Every request of the run is answered as `Bucket.Answers` says, with the faults that `fails`
admits. -/
def Undisturbed (backend : Backend τ) (view : τ → Bucket) (fails : Request → Fault → Prop)
    (p : Program α) (s : τ) : Prop :=
  ∀ e ∈ p.sent backend s, Bucket.Answers fails e.1 (view e.2)
    (backend.answer e.1 e.2).1 (view (backend.answer e.1 e.2).2)

/-- The first answer of an undisturbed run satisfies `Bucket.Answers`, and the rest of the run is
undisturbed. -/
theorem undisturbed_call {request : Request} {next : Except Fault request.Answer → Program α}
    {s : τ} (h : (call request next).Undisturbed backend view fails s) :
    Bucket.Answers fails request (view s) (backend.answer request s).1
        (view (backend.answer request s).2) ∧
      (next (backend.answer request s).1).Undisturbed backend view fails
        (backend.answer request s).2 :=
  ⟨h (request, s) List.mem_cons_self, fun e he => h e (List.mem_cons_of_mem _ he)⟩

/-- In an undisturbed run, `sends` allows every request and the end satisfies `post`. -/
theorem Ensures.run_undisturbed {sends : Request → Bucket → Prop}
    {post : Option α → Bucket → Prop} {p : Program α} {s : τ}
    (h : p.Ensures (Bucket.environment fails) sends post (view s))
    (hrun : p.Undisturbed backend view fails s) :
    (∀ e ∈ p.sent backend s, sends e.1 (view e.2)) ∧
      post (p.run backend s).1 (view (p.run backend s).2) := by
  induction p generalizing s with
  | done a => exact ⟨fun e he => absurd he List.not_mem_nil, h⟩
  | poll token next ih => exact ih _ (h _ trivial) hrun
  | call request next ih =>
      obtain ⟨hsend, hnext⟩ := h
      obtain ⟨hanswer, hrest⟩ := undisturbed_call hrun
      obtain ⟨hsent, hend⟩ := ih _ (hnext _ _ hanswer) hrest
      refine ⟨?_, hend⟩
      intro e he
      rcases List.mem_cons.1 he with rfl | he
      · exact hsend
      · exact hsent e he
  | endless => exact ⟨fun e he => absurd he List.not_mem_nil, h⟩

/-- The outcome is a result, an absence, or a fault that `admits` accepts. -/
def isServed (admits : Request → Fault → Bool) (request : Request) :
    Except Fault request.Answer → Bool
  | .ok _ => true
  | .error fault => fault.isAbsence || admits request fault

/-- A run on a store with loud faults is undisturbed when all of its requests are served. -/
theorem undisturbed_of_served {fails' : Request → Fault → Prop}
    (hf : backend.Follows view (Bucket.environment fails)) (hloud : Loud fails)
    (admits : Request → Fault → Bool)
    (hadmits : ∀ request fault, admits request fault = true → fails' request fault)
    {p : Program α} {s : τ}
    (h : (p.sent backend s).all
      (fun e => isServed admits e.1 (backend.answer e.1 e.2).1) = true) :
    p.Undisturbed backend view fails' s := by
  intro e he
  refine (hf.answer e.1 e.2).of_served hloud ?_
  intro fault hfault
  have hserved := List.all_eq_true.1 h e he
  rw [hfault] at hserved
  exact (Bool.or_eq_true_iff.1 hserved).imp id (hadmits _ _)

end Program

/-! ## Tokens that stay unset -/

/-- The environment in which every check of the given token passes. -/
def Environment.unset {σ : Type} (env : Environment σ) (cancel : Option Token) : Environment σ where
  answers := env.answers
  cancels name s flag := env.cancels name s flag ∧ (cancel = some name → flag = false)

section Unset

variable {σ : Type} {env : Environment σ} {cancel : Option Token} {sends : Request → σ → Prop}

namespace Program

/-- A program ensures with the token unset what it ensures in the plain environment. -/
theorem Ensures.unset {post : Option α → σ → Prop} {p : Program α} {s : σ}
    (h : p.Ensures env sends post s) : p.Ensures (env.unset cancel) sends post s :=
  h.mono_environment (fun _ _ _ _ _ ha => ha) fun _ _ _ hflag => hflag.1

theorem ensures_isCancelled_unset {post : Option Bool → σ → Prop} {s : σ}
    (h : post (some false) s) : (isCancelled cancel).Ensures (env.unset cancel) sends post s := by
  refine ensures_isCancelled h ?_
  rintro name hname ⟨-, hunset⟩
  cases hunset hname

end Program

theorem Action.Ensures.unset {post : Option (Except Fault α) → σ → Prop} {a : Action α} {s : σ}
    (h : a.Ensures env sends post s) : a.Ensures (env.unset cancel) sends post s :=
  Program.Ensures.unset h

theorem Walk.Ensures.unset {ρ : Type} {post : Option (Except Fault α × ρ) → σ → Prop}
    {w : Walk ρ α} {record : ρ} {s : σ} (h : w.Ensures env sends post record s) :
    w.Ensures (env.unset cancel) sends post record s :=
  Program.Ensures.unset h

/-- A check of a token that is unset passes. -/
theorem Action.ensures_checkCancelled_unset {context : Option String}
    {post : Option (Except Fault Unit) → σ → Prop} {s : σ} (h : post (some (.ok ())) s) :
    (Action.checkCancelled cancel context).Ensures (env.unset cancel) sends post s :=
  Action.ensures_bind (Action.ensures_lift (Program.ensures_isCancelled_unset h))

/-- The lemma `Ensures.run_undisturbed` for a run in which the token stays unset. -/
theorem Program.Ensures.run_undisturbed_unset {backend : Backend τ} {view : τ → Bucket}
    {fails : Request → Fault → Prop} {sends : Request → Bucket → Prop}
    {post : Option α → Bucket → Prop} {p : Program α} {s : τ}
    (h : p.Ensures ((Bucket.environment fails).unset cancel) sends post (view s))
    (hunset : ∀ name, cancel = some name → ∀ s, backend.isCancelled name s = false)
    (hrun : p.Undisturbed backend view fails s) :
    post (p.run backend s).1 (view (p.run backend s).2) := by
  induction p generalizing s with
  | done a => exact h
  | poll name next ih => exact ih _ (h _ ⟨trivial, fun hname => hunset name hname s⟩) hrun
  | call request next ih =>
      obtain ⟨hanswer, hrest⟩ := undisturbed_call hrun
      exact ih _ (h.2 _ _ hanswer) hrest
  | endless => exact h

end Unset

end BucketTree
