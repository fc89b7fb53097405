import BucketTree.Proofs.Program.Traced
import BucketTree.Proofs.Store.Schedule
import BucketTree.Proofs.Store.Undisturbed

/-!
# Tokens that are set in the middle of a run

A token may be set during any request of a run, and then stays set (`Program.IsCancelled`). The end
of such a run follows from what the program ensures in the traced environment whose token is set
after the same number of requests (`Program.Ensures.run_cancelled`).
-/

set_option autoImplicit false

namespace BucketTree

variable {α τ : Type}

/-- A set token stays set. -/
def Backend.Keeps (backend : Backend τ) (token : Token) : Prop :=
  ∀ request s, backend.isCancelled token s = true →
    backend.isCancelled token (backend.answer request s).2 = true

/-- The traced environment of one bucket in which the token is set during the request after the
first `n` ones. -/
abbrev Bucket.cancelling (fails : Request → Fault → Prop) (token : Token) (n : Nat) :
    Environment (Traced Bucket) :=
  (Bucket.environment fails).traced token (setAfter n)

namespace Program

variable {backend : Backend τ} {token : Token} {view : τ → Bucket}
  {fails : Request → Fault → Prop}

/-- The token is set during the request `call` of the run; `before` are the requests before it and
`since` those after it. -/
structure IsCancelled (backend : Backend τ) (token : Token) (p : Program α) (s : τ)
    (before : List (Request × τ)) (call : Request × τ) (since : List (Request × τ)) : Prop where
  sent_eq : p.sent backend s = before ++ call :: since
  unset : backend.isCancelled token call.2 = false
  set : backend.isCancelled token (backend.answer call.1 call.2).2 = true
  keeps : backend.Keeps token

/-- When the token is set at the start of a run, it is set at every request of it. -/
theorem isCancelled_of_mem_sent (hkeeps : backend.Keeps token) {p : Program α} {s : τ}
    (hset : backend.isCancelled token s = true) :
    ∀ e ∈ p.sent backend s, backend.isCancelled token e.2 = true := by
  induction p generalizing s with
  | done a => exact fun e he => absurd he List.not_mem_nil
  | poll name next ih => exact ih _ hset
  | call request next ih =>
      intro e he
      rcases List.mem_cons.1 he with rfl | he
      · exact hset
      · exact ih _ (hkeeps _ _ hset) e he
  | endless => exact fun e he => absurd he List.not_mem_nil

variable {sends : Request → Traced Bucket → Prop} {post : Option α → Traced Bucket → Prop}

/-- The case of `run_cancelled` where the token is set before the first request of `p`. -/
theorem Ensures.run_set (hkeeps : backend.Keeps token) {n : Nat} {p : Program α} {s : τ}
    {sent : List Request} (hset : backend.isCancelled token s = true) (hn : n < sent.length)
    (hrun : p.Undisturbed backend view fails s)
    (h : p.Ensures (Bucket.cancelling fails token n) sends post ⟨view s, sent⟩) :
    post (p.run backend s).1
      ⟨view (p.run backend s).2, sent ++ (p.sent backend s).map (·.1)⟩ := by
  induction p generalizing s sent with
  | done a =>
      have hend : post (some a) ⟨view s, sent⟩ := h
      rwa [← List.append_nil sent] at hend
  | poll name next ih =>
      -- the backend and the trace agree that the token is set
      refine ih _ hset hn hrun (h _ ⟨trivial, ?_⟩)
      rintro rfl
      rw [hset]
      exact (decide_eq_true hn).symm
  | call request next ih =>
      obtain ⟨hanswer, hrest⟩ := undisturbed_call hrun
      have hmore : n < (sent ++ [request]).length := by
        rw [List.length_append]
        omega
      have hend := ih _ (hkeeps _ _ hset) hmore hrest (h.2 _ ⟨_, _⟩ ⟨hanswer, rfl⟩)
      rwa [List.append_assoc] at hend
  | endless =>
      have hend : post none ⟨view s, sent⟩ := h
      rwa [← List.append_nil sent] at hend

/-- The case of `run_cancelled` where the token is set during the request `call` of `p`. -/
theorem Ensures.run_unset {n : Nat} {p : Program α} {s : τ} {sent : List Request}
    {before since : List (Request × τ)} {call : Request × τ}
    (hcancelled : p.IsCancelled backend token s before call since)
    (hn : n = sent.length + before.length) (hrun : p.Undisturbed backend view fails s)
    (h : p.Ensures (Bucket.cancelling fails token n) sends post ⟨view s, sent⟩) :
    post (p.run backend s).1
      ⟨view (p.run backend s).2, sent ++ (p.sent backend s).map (·.1)⟩ := by
  obtain ⟨hsent, hunset, hset, hkeeps⟩ := hcancelled
  induction p generalizing s sent before with
  | done a => exact absurd hsent.symm (List.append_ne_nil_of_right_ne_nil _ (List.cons_ne_nil _ _))
  | poll name next ih =>
      -- the token is not set yet, as it is not when the request comes
      have hnot : backend.isCancelled token s = false := by
        by_contra hset
        have hcall := isCancelled_of_mem_sent hkeeps (Bool.eq_true_of_not_eq_false hset) call
          (hsent ▸ List.mem_append_right _ List.mem_cons_self)
        rw [hunset] at hcall
        cases hcall
      refine ih _ hn hrun (h _ ⟨trivial, ?_⟩) hsent
      rintro rfl
      rw [hnot]
      exact (decide_eq_false (Nat.not_lt.2 (hn ▸ Nat.le_add_right _ _))).symm
  | call request next ih =>
      obtain ⟨hanswer, hrest⟩ := undisturbed_call hrun
      have hnext := h.2 _ ⟨_, _⟩ ⟨hanswer, rfl⟩
      have hlength : (sent ++ [request]).length = sent.length + 1 := List.length_append
      cases before with
      | nil =>
          -- the token is set during this request, so the rest of the run starts with it set
          cases hsent
          have hmore : n < (sent ++ [request]).length := by
            rw [hn, hlength]
            exact Nat.lt_succ_self _
          have hend := hnext.run_set hkeeps hset hmore hrest
          rwa [List.append_assoc] at hend
      | cons first before =>
          obtain ⟨rfl, hsent'⟩ := List.cons.inj hsent
          have hmore : n = (sent ++ [request]).length + before.length := by
            rw [hn, hlength, List.length_cons]
            omega
          have hend := ih _ hmore hrest hnext hsent'
          rwa [List.append_assoc] at hend
  | endless => exact absurd hsent.symm (List.append_ne_nil_of_right_ne_nil _ (List.cons_ne_nil _ _))

/-- In an undisturbed run in which the token is set during `call`, the program ends as it ensures in
the environment that sets the token during the request of the same number. -/
theorem Ensures.run_cancelled {p : Program α} {s : τ} {before since : List (Request × τ)}
    {call : Request × τ} (hcancelled : p.IsCancelled backend token s before call since)
    (hrun : p.Undisturbed backend view fails s)
    (h : p.Ensures (Bucket.cancelling fails token before.length) sends post ⟨view s, []⟩) :
    post (p.run backend s).1
      ⟨view (p.run backend s).2, (before ++ call :: since).map (·.1)⟩ := by
  have hend := h.run_unset hcancelled (Nat.zero_add _).symm hrun
  rwa [hcancelled.sent_eq] at hend

end Program

/-- The request of a run after the first `before.length` ones is `call`. -/
theorem getElem?_call {before since : List (Request × τ)} {call : Request × τ} :
    ((before ++ call :: since).map (·.1))[before.length]? = some call.1 := by
  rw [List.map_append, List.getElem?_append_right (by simp)]
  simp

theorem drop_call {before since : List (Request × τ)} {call : Request × τ} :
    ((before ++ call :: since).map (·.1)).drop before.length = (call :: since).map (·.1) := by
  rw [← List.map_drop, List.drop_left]

theorem take_call {before since : List (Request × τ)} {call : Request × τ} :
    ((before ++ call :: since).map (·.1)).take (before.length + 1) =
      (before ++ [call]).map (·.1) := by
  rw [← List.map_take, List.take_length_add_append]
  rfl

/-- No request was sent after the one during which the token was set. -/
theorem not_mem_since {sent : List Request} {n : Nat} (hquiet : sent.length ≤ n + 1)
    (q : Request) : q ∉ sent.drop (n + 1) := by
  rw [List.drop_eq_nil_of_le hquiet]
  exact List.not_mem_nil

/-- When one more request is sent and none was sent after `call`, that request is `call` itself, or
the first one after it. -/
theorem call_or_since {sent : List Request} {q call : Request} {n : Nat}
    (hquiet : sent.length ≤ n + 1) (hcall : (sent ++ [q])[n]? = some call) :
    (call = q ∧ (sent ++ [q]).drop (n + 1) = []) ∨
      (sent[n]? = some call ∧ (sent ++ [q]).drop (n + 1) = [q]) := by
  rcases Nat.lt_or_ge n sent.length with hn | hn
  · obtain hlength : n + 1 = sent.length := by omega
    rw [List.getElem?_append_left hn] at hcall
    refine Or.inr ⟨hcall, ?_⟩
    rw [hlength, List.drop_left]
  · rw [List.getElem?_append_right hn, List.getElem?_singleton] at hcall
    split at hcall
    · cases hcall
      refine Or.inl ⟨rfl, List.drop_eq_nil_of_le ?_⟩
      rw [List.length_append]
      exact Nat.add_le_add_right hn 1
    · cases hcall

/-! ## Schedules that set a token -/

/-- The request is the deletion of the object at the key. -/
def Request.deletes (key : Key) : Request → Bool
  | .delete target => target == key
  | _ => false

theorem Request.eq_of_deletes {key : Key} {q : Request} (h : q.deletes key = true) :
    q = .delete key := by
  cases q with
  | delete target => rw [eq_of_beq h]
  | _ => cases h

namespace Schedule

/-- The schedule with no faults and no set tokens. -/
def undisturbed : Schedule := ⟨fun _ => none, fun _ _ => false⟩

theorem isLoud_undisturbed : undisturbed.IsLoud := fun _ _ h => by cases h

/-- The schedule with all tokens set from the first request on that satisfies `isCall`. -/
def cancelledBy (schedule : Schedule) (isCall : Request → Bool) : Schedule :=
  { schedule with isCancelled := fun _ requests => requests.any isCall }

variable {schedule : Schedule} {isCall : Request → Bool} {name : String} {token : Token}
  {p : Program α} {s : State}

/-- Every request is recorded, whatever its outcome. -/
theorem requests_answer (schedule : Schedule) (name : String) (request : Request) (s : State) :
    (schedule.answer name request s).2.requests = request :: s.requests := by
  unfold answer
  dsimp only
  split <;> rfl

theorem isLoud_cancelledBy (h : schedule.IsLoud) : (schedule.cancelledBy isCall).IsLoud := h

theorem keeps_cancelledBy : ((schedule.cancelledBy isCall).backend name).Keeps token := by
  intro request s hset
  show ((schedule.cancelledBy isCall).answer name request s).2.requests.any isCall = true
  rw [requests_answer, List.any_cons]
  exact Bool.or_eq_true_iff.2 (Or.inr hset)

/-- When the first request that satisfies `isCall` comes after `n` others, the tokens are set during
that request. -/
theorem isCancelled_cancelledBy {n : Nat}
    (hfirst : (p.sent ((schedule.cancelledBy isCall).backend name) s)[n]?.any
      (fun e => isCall e.1 && !e.2.requests.any isCall) = true) :
    ∃ call, isCall call.1 = true ∧
      (p.sent ((schedule.cancelledBy isCall).backend name) s).take n ++ [call] =
        (p.sent ((schedule.cancelledBy isCall).backend name) s).take (n + 1) ∧
      p.IsCancelled ((schedule.cancelledBy isCall).backend name) token s
        ((p.sent ((schedule.cancelledBy isCall).backend name) s).take n) call
        ((p.sent ((schedule.cancelledBy isCall).backend name) s).drop (n + 1)) := by
  obtain ⟨call, hn, hfirst⟩ := (Option.any_eq_true _ _).1 hfirst
  obtain ⟨hcall, hunset⟩ := Bool.and_eq_true_iff.1 hfirst
  obtain ⟨hlength, rfl⟩ := List.getElem?_eq_some_iff.1 hn
  refine ⟨_, hcall, List.take_append_getElem hlength, ?_, Bool.eq_false_of_not_eq_true' hunset, ?_,
    keeps_cancelledBy⟩
  · rw [← List.drop_eq_getElem_cons hlength, List.take_append_drop]
  · show ((schedule.cancelledBy isCall).answer name _ _).2.requests.any isCall = true
    rw [requests_answer, List.any_cons, hcall]
    rfl

end Schedule

end BucketTree
