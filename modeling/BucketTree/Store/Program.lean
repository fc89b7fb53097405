import BucketTree.Store.Request

/-!
# Programs over a store

An operation of the file system is a `Program`: a tree of requests to a store, where each branch
depends on the answer. A program may also read a cancellation token, and it may end without a result
when a walk exceeds its page limit. `Program.run` runs a program on a backend, which answers
requests from a state of its own.

Programs form a lawful monad, and running one after another runs them in turn (`run_bind`).
-/

set_option autoImplicit false

namespace BucketTree

/-- A signal with which a caller cancels operations. -/
abbrev Token := String

/-- A computation with requests to a store. -/
inductive Program (α : Type) : Type where
  /-- The computation has ended with a result. -/
  | done (result : α)
  /-- Reads whether a token is cancelled. -/
  | poll (token : Token) (next : Bool → Program α)
  /-- Sends a request and continues with the answer or the fault. -/
  | call (request : Request) (next : Except Fault request.Answer → Program α)
  /-- The computation has exceeded its page limit. -/
  | endless

/-- A handler of requests, with a state of type `σ`. -/
structure Backend (σ : Type) where
  answer : (request : Request) → σ → Except Fault request.Answer × σ
  isCancelled : Token → σ → Bool

namespace Program

variable {α β γ σ : Type}

/-- Continues with `f` at the result of `p`. -/
def bind : Program α → (α → Program β) → Program β
  | .done a, f => f a
  | .poll token next, f => .poll token fun b => (next b).bind f
  | .call request next, f => .call request fun r => (next r).bind f
  | .endless, _ => .endless

instance : Monad Program where
  pure := .done
  bind := bind

theorem bind_assoc (p : Program α) (f : α → Program β) (g : β → Program γ) :
    (p.bind f).bind g = p.bind fun a => (f a).bind g := by
  induction p with
  | done a => rfl
  | poll token next ih => exact congrArg (Program.poll token) (funext ih)
  | call request next ih => exact congrArg (Program.call request) (funext ih)
  | endless => rfl

theorem bind_done (p : Program α) : p.bind .done = p := by
  induction p with
  | done a => rfl
  | poll token next ih => exact congrArg (Program.poll token) (funext ih)
  | call request next ih => exact congrArg (Program.call request) (funext ih)
  | endless => rfl

instance : LawfulMonad Program :=
  LawfulMonad.mk' Program bind_done (fun _ _ => rfl) bind_assoc

/-- Runs a program. A computation that exceeds its page limit has no result. -/
def run (backend : Backend σ) : Program α → σ → Option α × σ
  | .done a, s => (some a, s)
  | .poll token next, s => (next (backend.isCancelled token s)).run backend s
  | .call request next, s =>
      let (outcome, s) := backend.answer request s
      (next outcome).run backend s
  | .endless, s => (none, s)

/-- The state of a token. Without a token nothing is cancelled. -/
def isCancelled : Option Token → Program Bool
  | none => .done false
  | some token => .poll token .done

/-- The fault or the answer to one request. -/
def request (q : Request) : Program (Except Fault q.Answer) := .call q .done

/-- The metadata of the object at a key. -/
def head (key : Key) : Program (Except Fault (Option Metadata)) := request (.head key)

/-- The content of the object at a key. -/
def get (key : Key) : Program (Except Fault Body) := request (.get key)

/-- Stores an object at a key and returns its block of memory. -/
def put (key : Key) (upload : Upload) : Program (Except Fault (Option BlockNumber)) :=
  request (.put key upload)

/-- Deletes the object at a key. -/
def delete (key : Key) : Program (Except Fault Unit) := request (.delete key)

/-- Copies an object within the store. -/
def copy (source destination : Key) : Program (Except Fault Unit) :=
  request (.copy source destination)

/-- One page of a listing. -/
def list (page : PageRequest) : Program (Except Fault (Option Page)) := request (.list page)

/-- A stream over the object at a key, from an offset on. -/
def openRange (key : Key) (offset : Value) : Program (Except Fault Stream) :=
  request (.openRange key offset)

@[simp]
theorem run_pure (backend : Backend σ) (a : α) (s : σ) :
    (pure a : Program α).run backend s = (some a, s) := rfl

/-- Running two programs in turn. -/
theorem run_bind (backend : Backend σ) (p : Program α) (f : α → Program β) (s : σ) :
    (p >>= f).run backend s =
      match p.run backend s with
      | (some a, s) => (f a).run backend s
      | (none, s) => (none, s) := by
  show (p.bind f).run backend s = _
  induction p generalizing s with
  | done a => rfl
  | poll token next ih => exact ih _ s
  | call request next ih => exact ih _ _
  | endless => rfl

end Program

end BucketTree
