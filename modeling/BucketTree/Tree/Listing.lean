import BucketTree.Settings
import BucketTree.Store.Action

/-!
# Listings

A `Listing` reads the keys with a given prefix page by page. Each chunk takes one request, which is
sent when the chunk is asked for. A listing is finished after its last page, after a failure and
after a cancellation. A finished listing sends no request.
-/

set_option autoImplicit false

namespace BucketTree

/-- The content of one page: keys, groups of keys, and the token of the next page. -/
structure Chunk where
  keys : List Key
  groups : List String
  next : Option String
deriving DecidableEq, Repr

/-- A listing of the keys that start with a text. -/
structure Listing where
  /-- The text that the keys start with. An absent text admits all keys. -/
  under : Option String
  /-- The listing includes all keys below, not only those of one level. -/
  isRecursive : Bool
  /-- The largest number of names in a page, as each request states it. -/
  pageSize : Value
  cancel : Option Token
  /-- The number of pages received. -/
  fetched : Nat
  /-- The token of the next page. -/
  token : Option String
  isDone : Bool

namespace Listing

variable {σ : Type}

/-- A listing before its first request. -/
def start (under : Option String) (isRecursive : Bool) (pageSize : Value) (cancel : Option Token) :
    Listing :=
  ⟨under, isRecursive, pageSize, cancel, 0, none, false⟩

/-- A listing with a given page size, which must be at least one. -/
def make (under : Option String) (isRecursive : Bool) (pageSize : Value) (cancel : Option Token) :
    Except Misuse Listing := do
  if ← pageSize.isBelow 1 then throw (.pageSize pageSize)
  return start under isRecursive pageSize cancel

/-- The text at which the listing groups keys: the separator, for a listing of one level. -/
def delimiter (l : Listing) : String := if l.isRecursive then "" else Key.separatorText

/-- The request for the next page. -/
def pageRequest (l : Listing) : PageRequest :=
  ⟨l.under, some l.delimiter, l.pageSize, l.token⟩

/-- The context that a cancelled listing reports. -/
def context (l : Listing) : String := "listing " ++ (Value.ofOption l.under).shown

/-- The subject that a failed listing reports. -/
def subject (l : Listing) : String := (Value.ofOption l.under).plain

/-- The chunk of a page, unless the page lacks a list or repeats the token. -/
def chunkOf (l : Listing) (page : Option Page) : Except Failure Chunk :=
  match page with
  | some ⟨some keys, some groups, next⟩ =>
      if next.isSome && next == l.token then .error (.listing l.under (.stuckToken l.subject))
      else .ok ⟨keys, groups, next⟩
  | _ => .error (.listing l.under (.malformedPage l.subject))

/-- The next chunk, or nothing when the listing is finished. -/
def next (l : Listing) : Program (Except Fault (Option Chunk) × Listing) := do
  if l.isDone then return (.ok none, l)
  let finished := { l with isDone := true }
  if ← Program.isCancelled l.cancel then
    return (.error (.known (.cancelled (some l.context))), finished)
  match ← Program.list l.pageRequest with
  | .error fault =>
      let detail := (fault.toFailure (some "LIST") l.under).message
      return (.error (.known (.listing l.under (.listFailed l.subject detail))), finished)
  | .ok page =>
      match l.chunkOf page with
      | .error failure =>
          return (.error (.known failure), { finished with fetched := l.fetched + 1 })
      | .ok chunk =>
          return (.ok (some chunk),
            { l with fetched := l.fetched + 1, token := chunk.next, isDone := chunk.next.isNone })

/-- Visits all remaining chunks. A walk that needs more than `pages` requests counts as endless. -/
def walk (visit : Chunk → Walk σ Unit) : Nat → Listing → Walk σ Unit
  | 0, _ => Walk.ofAction (Action.lift .endless)
  | pages + 1, l => do
      let (outcome, l) ← Walk.ofAction (Action.lift l.next)
      match outcome with
      | .error fault => throw fault
      | .ok none => return ()
      | .ok (some chunk) =>
          visit chunk
          walk visit pages l

/-- The first chunk of a fresh listing, empty if there is none. -/
def first (l : Listing) : Action Chunk := do
  match (← Action.lift l.next).1 with
  | .error fault => throw fault
  | .ok none => return ⟨[], [], none⟩
  | .ok (some chunk) => return chunk

end Listing

end BucketTree
