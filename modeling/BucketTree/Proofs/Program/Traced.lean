import BucketTree.Proofs.Program.Ensures

/-!
# Traced environments

Whether a token is set may depend on all requests so far, which the state of a store does not
record. `Environment.traced` adds the list of requests to the state and lets one token depend on it.
A program ensures in the traced environment what it ensures in the plain one, and there the requests
that it sends are known as well (`Ensures.traced`).
-/

set_option autoImplicit false

namespace BucketTree

variable {α β ρ σ : Type}

/-- A state of the store together with the requests sent so far. -/
structure Traced (σ : Type) where
  state : σ
  sent : List Request

/-- The environment with a trace of its requests, in which `token` is set exactly when `isSet` holds
of the trace. -/
def Environment.traced (env : Environment σ) (token : Token) (isSet : List Request → Bool) :
    Environment (Traced σ) where
  answers request w outcome w' :=
    env.answers request w.state outcome w'.state ∧ w'.sent = w.sent ++ [request]
  cancels name w flag := env.cancels name w.state flag ∧ (name = token → flag = isSet w.sent)

/-- The token is set once more than `n` requests were sent: the request after the first `n` ones is
the one during which it is set. -/
def setAfter (n : Nat) (sent : List Request) : Bool := decide (n < sent.length)

variable {env : Environment σ} {token : Token} {isSet : List Request → Bool} {w : Traced σ}

namespace Program

/-- A program ensures in the traced environment what it ensures in the plain one, and the requests
that it adds to the trace are ones that it may send. -/
theorem Ensures.traced {sends : Request → σ → Prop} {post : Option α → σ → Prop} {p : Program α}
    (h : p.Ensures env sends post w.state) :
    p.Ensures (env.traced token isSet) (fun q w => sends q w.state)
      (fun r w' => post r w'.state ∧
        ∃ sent, w'.sent = w.sent ++ sent ∧ ∀ q ∈ sent, ∃ s, sends q s) w := by
  induction p generalizing w with
  | done a => exact ⟨h, [], (List.append_nil _).symm, fun q hq => absurd hq List.not_mem_nil⟩
  | poll name next ih => exact fun flag hflag => ih flag (h flag hflag.1)
  | call request next ih =>
      obtain ⟨hsend, hnext⟩ := h
      refine ⟨hsend, ?_⟩
      rintro outcome w' ⟨hanswer, hsent⟩
      refine (ih outcome (hnext outcome _ hanswer)).mono ?_
      rintro r w'' ⟨hpost, sent, hsent', hmay⟩
      refine ⟨hpost, request :: sent, ?_, ?_⟩
      · rw [hsent', hsent, List.append_assoc]
        rfl
      · intro q hq
        rcases List.mem_cons.1 hq with rfl | hq
        · exact ⟨_, hsend⟩
        · exact hmay q hq
  | endless => exact ⟨h, [], (List.append_nil _).symm, fun q hq => absurd hq List.not_mem_nil⟩

/-- A run extends the trace. -/
theorem ensures_extends (p : Program α) (w : Traced σ) :
    p.Ensures (env.traced token isSet) (fun _ _ => True) (fun _ w' => w.sent <+: w'.sent) w := by
  induction p generalizing w with
  | done a => exact List.prefix_rfl
  | poll name next ih => exact fun flag _ => ih flag w
  | call request next ih =>
      refine ⟨trivial, ?_⟩
      rintro outcome w' ⟨-, hsent⟩
      refine (ih outcome w').mono ?_
      intro r w'' hextends
      rw [hsent] at hextends
      exact (List.prefix_append _ _).trans hextends
  | endless => exact List.prefix_rfl

theorem ensures_isCancelled_traced {sends : Request → Traced σ → Prop}
    {post : Option Bool → Traced σ → Prop} {cancel : Option Token} (hcancel : cancel = some token)
    (h : post (some (isSet w.sent)) w) :
    (isCancelled cancel).Ensures (env.traced token isSet) sends post w := by
  subst hcancel
  rintro flag ⟨-, hflag⟩
  rw [hflag rfl]
  exact h

end Program

/-- Rule for a check of the traced token: it fails exactly when `isSet` holds of the trace. -/
theorem Action.ensures_checkCancelled_traced {sends : Request → Traced σ → Prop}
    {post : Option (Except Fault Unit) → Traced σ → Prop} {context : Option String}
    (hgo : isSet w.sent = false → post (some (.ok ())) w)
    (hstop : isSet w.sent = true → post (some (.error (.known (.cancelled context)))) w) :
    (Action.checkCancelled (some token) context).Ensures (env.traced token isSet) sends post w := by
  refine Action.ensures_bind (Action.ensures_lift (Program.ensures_isCancelled_traced rfl ?_))
  cases hset : isSet w.sent with
  | false => exact hgo hset
  | true => exact hstop hset

end BucketTree
