import BucketTree.Store.Action

/-!
# What a run ensures

An `Environment` relates each request and state to the outcomes and next states that the store may
give. It is nondeterministic: any request may fail, and any token may be cancelled.
`Program.Ensures` states, against every answer of the environment, which requests a program sends in
which states, and how it ends. `Ensures.run` transfers this to every backend that follows the
environment.

The rules below follow the ways in which programs, actions and walks are built, so that each
function gets one specification and its callers need not unfold it. The end of a run is an `Option`;
it is `none` when a walk was given up.
-/

set_option autoImplicit false

namespace BucketTree

variable {α β ρ σ τ : Type}

/-- The outcomes and next states that a store may give for a request, and the values that a check of
a token may give. -/
structure Environment (σ : Type) where
  answers : (request : Request) → σ → Except Fault request.Answer → σ → Prop
  cancels : Token → σ → Bool → Prop

/-- Every answer of the backend, and every check of a token on it, is one that the environment
allows for the states seen through `view`. -/
structure Backend.Follows (backend : Backend τ) (view : τ → σ) (env : Environment σ) : Prop where
  answer : ∀ request s,
    env.answers request (view s) (backend.answer request s).1 (view (backend.answer request s).2)
  isCancelled : ∀ token s, env.cancels token (view s) (backend.isCancelled token s)

namespace Program

/-- The requests that a program sends, each with the state that it meets. -/
def sent (backend : Backend σ) : Program α → σ → List (Request × σ)
  | .done _, _ => []
  | .poll token next, s => (next (backend.isCancelled token s)).sent backend s
  | .call request next, s =>
      (request, s) ::
        (next (backend.answer request s).1).sent backend (backend.answer request s).2
  | .endless, _ => []

/-- The states that a run passes through: before each of its requests, and at its end. -/
def states (backend : Backend σ) (p : Program α) (s : σ) : List σ :=
  (p.sent backend s).map (·.2) ++ [(p.run backend s).2]

/-- Against every answer of the environment, the program sends a request only in states where
`sends` allows it, and its end satisfies `post`. -/
def Ensures (env : Environment σ) (sends : Request → σ → Prop) (post : Option α → σ → Prop) :
    Program α → σ → Prop
  | .done a, s => post (some a) s
  | .poll token next, s =>
      ∀ flag, env.cancels token s flag → (next flag).Ensures env sends post s
  | .call request next, s =>
      sends request s ∧
        ∀ outcome s', env.answers request s outcome s' → (next outcome).Ensures env sends post s'
  | .endless, s => post none s

section Rules

variable {env : Environment σ} {sends : Request → σ → Prop}

/-- On a backend that follows the environment, `sends` allows every request of a run, and the end of
the run satisfies `post`. -/
theorem Ensures.run {backend : Backend τ} {view : τ → σ} (hf : backend.Follows view env)
    {post : Option α → σ → Prop} {p : Program α} {s : τ}
    (h : p.Ensures env sends post (view s)) :
    (∀ e ∈ p.sent backend s, sends e.1 (view e.2)) ∧
      post (p.run backend s).1 (view (p.run backend s).2) := by
  induction p generalizing s with
  | done a => exact ⟨fun e he => absurd he List.not_mem_nil, h⟩
  | poll token next ih => exact ih _ (h _ (hf.isCancelled token s))
  | call request next ih =>
      obtain ⟨hsend, hnext⟩ := h
      obtain ⟨hsent, hend⟩ := ih _ (hnext _ _ (hf.answer request s))
      refine ⟨?_, hend⟩
      intro e he
      rcases List.mem_cons.1 he with rfl | he
      · exact hsend
      · exact hsent e he
  | endless => exact ⟨fun e he => absurd he List.not_mem_nil, h⟩

/-- A property of all states where requests are sent, and of all states where the program ends,
holds in every state of a run. -/
theorem Ensures.forall_states {backend : Backend τ} {view : τ → σ} (hf : backend.Follows view env)
    {post : Option α → σ → Prop} {p : Program α} {s : τ}
    (h : p.Ensures env sends post (view s)) (holds : σ → Prop)
    (hsends : ∀ q s, sends q s → holds s) (hpost : ∀ r s, post r s → holds s) :
    ∀ s' ∈ p.states backend s, holds (view s') := by
  obtain ⟨hsent, hend⟩ := h.run hf
  intro s' hs'
  rcases List.mem_append.1 hs' with hs' | hs'
  · obtain ⟨e, he, rfl⟩ := List.mem_map.1 hs'
    exact hsends _ _ (hsent e he)
  · rw [List.mem_singleton.1 hs']
    exact hpost _ _ hend

theorem Ensures.mono {post post' : Option α → σ → Prop} {p : Program α} {s : σ}
    (h : p.Ensures env sends post s) (hpost : ∀ r s, post r s → post' r s) :
    p.Ensures env sends post' s := by
  induction p generalizing s with
  | done a => exact hpost _ _ h
  | poll token next ih => exact fun flag hflag => ih flag (h flag hflag)
  | call request next ih => exact ⟨h.1, fun outcome s' ha => ih outcome (h.2 outcome s' ha)⟩
  | endless => exact hpost _ _ h

theorem Ensures.mono_sends {sends' : Request → σ → Prop} {post : Option α → σ → Prop}
    {p : Program α} {s : σ} (h : p.Ensures env sends post s)
    (hsends : ∀ q s, sends q s → sends' q s) : p.Ensures env sends' post s := by
  induction p generalizing s with
  | done a => exact h
  | poll token next ih => exact fun flag hflag => ih flag (h flag hflag)
  | call request next ih =>
      exact ⟨hsends _ _ h.1, fun outcome s' ha => ih outcome (h.2 outcome s' ha)⟩
  | endless => exact h

/-- A program ensures the same in an environment that allows fewer answers to the requests it
sends. -/
theorem Ensures.mono_environment {env' : Environment σ} {post : Option α → σ → Prop}
    {p : Program α} {s : σ} (h : p.Ensures env sends post s)
    (hanswers : ∀ q s, sends q s → ∀ outcome s',
      env'.answers q s outcome s' → env.answers q s outcome s')
    (hcancels : ∀ token s flag, env'.cancels token s flag → env.cancels token s flag) :
    p.Ensures env' sends post s := by
  induction p generalizing s with
  | done a => exact h
  | poll token next ih => exact fun flag hflag => ih flag (h flag (hcancels _ _ _ hflag))
  | call request next ih =>
      exact ⟨h.1, fun outcome s' ha => ih outcome (h.2 outcome s' (hanswers _ _ h.1 _ _ ha))⟩
  | endless => exact h

/-- Two specifications of a program hold together. -/
theorem Ensures.and {sends' : Request → σ → Prop} {post post' : Option α → σ → Prop}
    {p : Program α} {s : σ} (h : p.Ensures env sends post s) (h' : p.Ensures env sends' post' s) :
    p.Ensures env sends (fun r s => post r s ∧ post' r s) s := by
  induction p generalizing s with
  | done a => exact ⟨h, h'⟩
  | poll token next ih => exact fun flag hflag => ih flag (h flag hflag) (h' flag hflag)
  | call request next ih =>
      exact ⟨h.1, fun outcome s' ha => ih outcome (h.2 outcome s' ha) (h'.2 outcome s' ha)⟩
  | endless => exact ⟨h, h'⟩

/-- Rule for `>>=`. -/
theorem ensures_bind {post : Option β → σ → Prop} {p : Program α} {f : α → Program β} {s : σ}
    (h : p.Ensures env sends
      (fun r s =>
        match r with
        | some a => (f a).Ensures env sends post s
        | none => post none s) s) :
    (p >>= f).Ensures env sends post s := by
  show (p.bind f).Ensures env sends post s
  -- along the first program, whose end goes on with `f`
  induction p generalizing s with
  | done a => exact h
  | poll token next ih => exact fun flag hflag => ih flag (h flag hflag)
  | call request next ih => exact ⟨h.1, fun outcome s' ha => ih outcome (h.2 outcome s' ha)⟩
  | endless => exact h

theorem ensures_request {q : Request} {post : Option (Except Fault q.Answer) → σ → Prop} {s : σ}
    (hsend : sends q s) (hpost : ∀ r s', env.answers q s r s' → post (some r) s') :
    (request q).Ensures env sends post s :=
  ⟨hsend, hpost⟩

/-- Rule for `isCancelled`: without a token the result is `false`; with one, the environment decides
which results are possible. -/
theorem ensures_isCancelled {token : Option Token} {post : Option Bool → σ → Prop} {s : σ}
    (hgo : post (some false) s)
    (hstop : ∀ name, token = some name → env.cancels name s true → post (some true) s) :
    (isCancelled token).Ensures env sends post s := by
  cases token with
  | none => exact hgo
  | some name =>
      intro flag hflag
      cases flag with
      | false => exact hgo
      | true => exact hstop name rfl hflag

end Rules

end Program

namespace Action

/-- The result of an action that returned one. -/
def returned? : Option (Except Fault α) → Option α
  | some (.ok x) => some x
  | _ => none

/-- The fault of an action that ended with one. -/
def raised? : Option (Except Fault α) → Option Fault
  | some (.error fault) => some fault
  | _ => none

theorem returned?_eq_some {r : Option (Except Fault α)} {x : α} (h : returned? r = some x) :
    r = some (.ok x) := by
  unfold returned? at h
  split at h <;> cases h
  rfl

theorem raised?_eq_some {r : Option (Except Fault α)} {fault : Fault}
    (h : raised? r = some fault) : r = some (.error fault) := by
  unfold raised? at h
  split at h <;> cases h
  rfl

/-- The predicate `Program.Ensures` for the program of an action. -/
def Ensures (env : Environment σ) (sends : Request → σ → Prop)
    (post : Option (Except Fault α) → σ → Prop) (a : Action α) (s : σ) : Prop :=
  a.run.Ensures env sends post s

section Rules

variable {env : Environment σ} {sends : Request → σ → Prop}

/-- On a backend that follows the environment, `sends` allows every request of a run, and the end of
the action satisfies `post`. -/
theorem Ensures.run {backend : Backend τ} {view : τ → σ} (hf : backend.Follows view env)
    {post : Option (Except Fault α) → σ → Prop} {a : Action α} {s : τ}
    (h : a.Ensures env sends post (view s)) :
    (∀ e ∈ a.run.sent backend s, sends e.1 (view e.2)) ∧
      post (a.perform backend s).1 (view (a.perform backend s).2) :=
  Program.Ensures.run hf h

theorem ensures_pure {post : Option (Except Fault α) → σ → Prop} {x : α} {s : σ}
    (h : post (some (.ok x)) s) : (pure x : Action α).Ensures env sends post s := h

theorem ensures_throw {post : Option (Except Fault α) → σ → Prop} {fault : Fault} {s : σ}
    (h : post (some (.error fault)) s) :
    (throw fault : Action α).Ensures env sends post s := h

theorem ensures_fail {post : Option (Except Fault α) → σ → Prop} {failure : Failure} {s : σ}
    (h : post (some (.error (.known failure))) s) :
    (fail failure : Action α).Ensures env sends post s := ensures_throw h

theorem ensures_ofExcept {post : Option (Except Fault α) → σ → Prop} {r : Except Fault α} {s : σ}
    (h : post (some r) s) : (ofExcept r).Ensures env sends post s := h

theorem ensures_ofPath {post : Option (Except Fault α) → σ → Prop} {r : Except PathRefusal α}
    {s : σ}
    (hok : ∀ x, r = .ok x → post (some (.ok x)) s)
    (hrefused : ∀ refusal, r = .error refusal →
      post (some (.error (.known (.ofRefusal refusal)))) s) :
    (ofPath r).Ensures env sends post s := by
  cases r with
  | ok x => exact hok x rfl
  | error refusal => exact hrefused refusal rfl

/-- Rule for `>>=` on actions: a fault of the first action ends the whole. -/
theorem ensures_bind {post : Option (Except Fault β) → σ → Prop} {a : Action α}
    {f : α → Action β} {s : σ}
    (h : a.Ensures env sends
      (fun r s =>
        match r with
        | some (.ok x) => (f x).Ensures env sends post s
        | some (.error fault) => post (some (.error fault)) s
        | none => post none s) s) :
    (a >>= f).Ensures env sends post s := by
  show (a.run >>= ExceptT.bindCont f).Ensures env sends post s
  refine Program.ensures_bind (Program.Ensures.mono h ?_)
  rintro (_ | _ | _) s hr <;> exact hr

/-- Rule for `discard`. -/
theorem ensures_discard {post : Option (Except Fault PUnit) → σ → Prop} {a : Action α} {s : σ}
    (h : a.Ensures env sends (fun r s => post (r.map fun x => x.map fun _ => ⟨⟩) s) s) :
    (discard a : Action PUnit).Ensures env sends post s := by
  refine ensures_bind (Program.Ensures.mono h ?_)
  rintro (_ | _ | _) s hr <;> exact hr

theorem ensures_lift {post : Option (Except Fault α) → σ → Prop} {p : Program α} {s : σ}
    (h : p.Ensures env sends (fun r s => post (r.map .ok) s) s) :
    (lift p).Ensures env sends post s := by
  show (p >>= fun a => pure (Except.ok a)).Ensures env sends post s
  refine Program.ensures_bind (h.mono ?_)
  rintro (_ | _) s hr <;> exact hr

theorem ensures_request {q : Request}
    {post : Option (Except Fault (Except Fault q.Answer)) → σ → Prop} {s : σ}
    (hsend : sends q s) (hpost : ∀ r s', env.answers q s r s' → post (some (.ok r)) s') :
    (lift (Program.request q)).Ensures env sends post s :=
  ensures_lift (Program.ensures_request hsend hpost)

theorem ensures_outcome {post : Option (Except Fault (Except Fault α)) → σ → Prop}
    {a : Action α} {s : σ} (h : a.Ensures env sends (fun r s => post (r.map .ok) s) s) :
    a.outcome.Ensures env sends post s :=
  ensures_lift h

theorem ensures_checkCancelled {post : Option (Except Fault Unit) → σ → Prop}
    {token : Option Token} {context : Option String} {s : σ}
    (hgo : post (some (.ok ())) s)
    (hstop : token ≠ none → post (some (.error (.known (.cancelled context)))) s) :
    (checkCancelled token context).Ensures env sends post s :=
  ensures_bind (ensures_lift (Program.ensures_isCancelled hgo fun name hname _ =>
    hstop (hname ▸ Option.some_ne_none name)))

end Rules

end Action

namespace Walk

/-- The predicate `Program.Ensures` for the program of a walk that starts with `record`. -/
def Ensures (env : Environment σ) (sends : Request → σ → Prop)
    (post : Option (Except Fault α × ρ) → σ → Prop) (w : Walk ρ α) (record : ρ) (s : σ) : Prop :=
  (w.run.run record).Ensures env sends post s

section Rules

variable {env : Environment σ} {sends : Request → σ → Prop}

theorem ensures_pure {post : Option (Except Fault α × ρ) → σ → Prop} {x : α} {record : ρ} {s : σ}
    (h : post (some (.ok x, record)) s) :
    (pure x : Walk ρ α).Ensures env sends post record s := h

theorem ensures_throw {post : Option (Except Fault α × ρ) → σ → Prop} {fault : Fault}
    {record : ρ} {s : σ} (h : post (some (.error fault, record)) s) :
    (throw fault : Walk ρ α).Ensures env sends post record s := h

theorem ensures_get {post : Option (Except Fault ρ × ρ) → σ → Prop} {record : ρ} {s : σ}
    (h : post (some (.ok record, record)) s) :
    (get : Walk ρ ρ).Ensures env sends post record s := h

theorem ensures_modify {post : Option (Except Fault PUnit × ρ) → σ → Prop} {f : ρ → ρ}
    {record : ρ} {s : σ} (h : post (some (.ok ⟨⟩, f record)) s) :
    (modify f : Walk ρ PUnit).Ensures env sends post record s := h

theorem Ensures.mono {post post' : Option (Except Fault α × ρ) → σ → Prop} {w : Walk ρ α}
    {record : ρ} {s : σ} (h : w.Ensures env sends post record s)
    (hpost : ∀ r s, post r s → post' r s) : w.Ensures env sends post' record s :=
  Program.Ensures.mono h hpost

/-- Rule for `>>=` on walks: a fault of the first walk ends the whole, with the record as it was
then. -/
theorem ensures_bind {post : Option (Except Fault β × ρ) → σ → Prop} {w : Walk ρ α}
    {f : α → Walk ρ β} {record : ρ} {s : σ}
    (h : w.Ensures env sends
      (fun r s =>
        match r with
        | some (.ok x, record) => (f x).Ensures env sends post record s
        | some (.error fault, record) => post (some (.error fault, record)) s
        | none => post none s) record s) :
    (w >>= f).Ensures env sends post record s := by
  show ((ExceptT.run w >>= ExceptT.bindCont f).run record).Ensures env sends post s
  rw [StateT.run_bind]
  refine Program.ensures_bind (Program.Ensures.mono h ?_)
  rintro (_ | ⟨_ | _, _⟩) s hr <;> exact hr

/-- Rule for `ofAction`: the action leaves the record alone. -/
theorem ensures_ofAction {post : Option (Except Fault α × ρ) → σ → Prop} {a : Action α}
    {record : ρ} {s : σ}
    (h : a.Ensures env sends (fun r s => post (r.map fun x => (x, record)) s) s) :
    (ofAction a).Ensures env sends post record s := by
  show (a.run >>= fun r => pure (r, record)).Ensures env sends post s
  refine Program.ensures_bind (Program.Ensures.mono h ?_)
  rintro (_ | _) s hr <;> exact hr

/-- Rule for `collect`: a fault of the walk becomes part of the result of the action. -/
theorem ensures_collect {post : Option (Except Fault (Except Fault α × ρ)) → σ → Prop}
    {w : Walk ρ α} {record : ρ} {s : σ}
    (h : w.Ensures env sends (fun r s => post (r.map .ok) s) record s) :
    (w.collect record).Ensures env sends post s :=
  Action.ensures_lift h

/-- The postcondition of a walk, split into its three ends: a result, a fault, and a walk that was
given up. -/
def Ends (done : α → ρ → σ → Prop) (stop : Fault → ρ → σ → Prop) (endless : σ → Prop) :
    Option (Except Fault α × ρ) → σ → Prop
  | some (.ok x, record), s => done x record s
  | some (.error fault, record), s => stop fault record s
  | none, s => endless s

/-- Rule for `forM`, with an invariant `inv` over the items not visited yet. A fault ends the
loop. -/
theorem ensures_forM {f : α → Walk ρ PUnit} {inv : List α → ρ → σ → Prop}
    {stop : Fault → ρ → σ → Prop} {endless : σ → Prop}
    (hf : ∀ x left record s, inv (x :: left) record s →
      (f x).Ensures env sends (Ends (fun _ => inv left) stop endless) record s) :
    ∀ (items left : List α) (record : ρ) (s : σ), inv (items ++ left) record s →
      (items.forM f).Ensures env sends (Ends (fun _ => inv left) stop endless) record s := by
  intro items
  induction items with
  | nil => exact fun left record s h => h
  | cons x rest ih =>
      intro left record s h
      refine ensures_bind ((hf x (rest ++ left) record s h).mono ?_)
      rintro (_ | ⟨fault | _, record⟩) s hend
      · exact hend
      · exact hend
      · exact ih left record s hend

end Rules

end Walk

end BucketTree
