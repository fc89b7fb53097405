import BucketTree.Store.Memory

/-!
# Interference

A store in memory whose requests can be interfered with by rules: a rule may remove objects,
cancel a token, raise a fault or give an answer in place of the store. The first rule that
applies to a request fires. Every request is recorded before the rules see it, whether it
succeeds or not. Without rules a world answers as its memory does (`answer_of_no_rules`).
-/

set_option autoImplicit false

namespace BucketTree

/-- An answer given in place of the store. -/
inductive ScriptedAnswer where
  | metadata (metadata : Option Metadata)
  | content (content : Bytes)
  | page (page : Option Page)
  | stream (stream : Stream)
  /-- The answer to a request that changes the store. -/
  | acknowledged

namespace ScriptedAnswer

/-- The scripted answer as an answer to the given request, if the kinds agree. -/
def to? : ScriptedAnswer → (request : Request) → Option request.Answer
  | .metadata m, .head _ => some m
  | .content b, .get _ => some (.fresh b)
  | .page p, .list _ => some p
  | .stream s, .openRange _ _ => some s
  | .acknowledged, .put _ _ => some none
  | .acknowledged, .delete _ => some ()
  | .acknowledged, .copy _ _ => some ()
  | _, _ => none

end ScriptedAnswer

/-- A rule of interference. -/
structure Rule where
  /-- The kind of request to which the rule applies. -/
  on : Operation
  /-- The subject to which the rule applies, if it is restricted to one. -/
  key : Option Key
  /-- The number of requests that the rule lets pass first. -/
  skip : Int
  /-- The number of times that the rule fires, if it is limited. -/
  times : Option Int
  /-- Keys removed when the rule fires. -/
  vanish : List Key
  /-- The token cancelled when the rule fires. -/
  cancel : Option Token
  /-- The fault raised instead of the request. -/
  raises : Option Fault
  /-- The answer given instead of the request. -/
  answer : Option ScriptedAnswer
  /-- The token cancelled after the request succeeded. -/
  cancelAfter : Option Token

namespace Rule

/-- Tells whether the rule applies to the request. -/
def isFor (request : Request) (r : Rule) : Bool :=
  r.on == request.operation && r.key.all (some · == request.subject?)

/-- The rule that fires on a request, if there is one, and the rules afterwards. -/
def choose (request : Request) : List Rule → Option Rule × List Rule
  | [] => (none, [])
  | r :: rest =>
      if !r.isFor request then
        let (fired, rest) := choose request rest
        (fired, r :: rest)
      else if 0 < r.skip then
        let (fired, rest) := choose request rest
        (fired, { r with skip := r.skip - 1 } :: rest)
      else if r.times == some 0 then
        let (fired, rest) := choose request rest
        (fired, r :: rest)
      else (some r, { r with times := r.times.map (· - 1) } :: rest)

end Rule

/-- A store in memory with rules, cancelled tokens and a record of the requests. -/
structure World where
  memory : Memory
  rules : List Rule
  cancelled : List Token
  /-- The requests so far, the last one first. -/
  requests : List Request

namespace World

variable {α : Type}

/-- Cancels a token, if one is given. -/
def cancel (token : Option Token) (w : World) : World :=
  match token with
  | none => w
  | some t => { w with cancelled := t :: w.cancelled }

/-- Removes objects from a bucket. -/
def vanish (name : String) (keys : List Key) (w : World) : World :=
  if keys.isEmpty then w
  else
    let left := keys.foldl (fun b key => b.erase key) (w.memory.bucket name)
    { w with memory := w.memory.setBucket name left }

/-- Records a request, applies the rules, and answers it with `real` if they let it through. -/
def interfere (name : String) (request : Request)
    (real : World → Except Fault request.Answer × World) (w : World) :
    Except Fault request.Answer × World :=
  let (fired, rules) := Rule.choose request w.rules
  let w := { w with requests := request :: w.requests, rules := rules }
  match fired with
  | none => real w
  | some rule =>
      let w := (w.vanish name rule.vanish).cancel rule.cancel
      match rule.raises with
      | some fault => (.error fault, w)
      | none =>
          match rule.answer.bind (·.to? request) with
          | some answer => (.ok answer, w)
          | none =>
              match real w with
              | (.ok answer, w) => (.ok answer, w.cancel rule.cancelAfter)
              | (.error fault, w) => (.error fault, w)

/-- Answers a request from memory, without the rules. -/
def fromMemory (name : String) (request : Request) (w : World) :
    Except Fault request.Answer × World :=
  let (outcome, memory) := w.memory.answer name request
  (outcome, { w with memory := memory })

/-- Carries out a request that the rules let through. A ranged read fetches its data by a
request of its own. -/
def carryOut (name : String) :
    (request : Request) → World → Except Fault request.Answer × World
  | .openRange key offset, w =>
      let (outcome, w) := interfere name (.get key) (fromMemory name (.get key)) w
      (outcome.bind (Stream.ofBodyFrom offset), w)
  | request, w => fromMemory name request w

/-- Answers a request on the bucket of a name. -/
def answer (name : String) (request : Request) (w : World) :
    Except Fault request.Answer × World :=
  interfere name request (carryOut name request) w

/-- Without rules, a request is recorded and answered by `real`. -/
theorem interfere_of_no_rules {w : World} (h : w.rules = []) (name : String) (request : Request)
    (real : World → Except Fault request.Answer × World) :
    interfere name request real w = real { w with requests := request :: w.requests } := by
  unfold interfere
  rw [h]
  simp only [Rule.choose]

/-- Without rules, a world answers as its memory. -/
theorem answer_of_no_rules {w : World} (h : w.rules = []) (name : String) (request : Request) :
    (answer name request w).1 = (w.memory.answer name request).1 ∧
      (answer name request w).2.memory = (w.memory.answer name request).2 := by
  unfold answer
  rw [interfere_of_no_rules h]
  cases request with
  | openRange key offset =>
      have recorded : { w with requests := .openRange key offset :: w.requests }.rules = [] := h
      simp only [carryOut]
      rw [interfere_of_no_rules recorded]
      exact ⟨rfl, rfl⟩
  | _ => exact ⟨rfl, rfl⟩

/-- The world as a backend for the bucket of a name. -/
def backend (name : String) : Backend World :=
  ⟨answer name, fun token w => w.cancelled.contains token⟩

/-- The total length of keys, with one more for each. -/
def keysWeight (keys : List Key) : Nat := keys.foldl (fun n key => n + 2 + key.length) 2

/-- A bound on the contribution of a rule to a walk: its counts and the lengths of its keys. -/
def ruleWeight (r : Rule) : Nat :=
  keysWeight r.vanish + r.skip.toNat + (r.times.getD 0).toNat + (r.key.getD "").length

/-- The factor between the size of a store with its rules and the number of pages after which a walk
counts as endless. -/
def patience : Nat := 1000

/-- A number of pages that no walk over the bucket reaches unless it does not end. Pages come from
the keys of the bucket or from the rules. -/
def pageLimit (name : String) (w : World) : Nat :=
  patience * w.rules.foldl (fun n r => n + ruleWeight r) 1 *
    keysWeight (w.memory.bucket name).keys

end World

end BucketTree
