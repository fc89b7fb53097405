import BucketTree.Store.Bucket
import BucketTree.Store.Request

/-!
# Pages of a listing

A listing returns the keys with a given prefix in increasing order. With a delimiter, the keys that
contain it after the prefix are collapsed into groups. The name of a group is the key up to the end
of the first occurrence of the delimiter. A page consists of consecutive names after a token; its
own token is its last name, if more names follow.
-/

set_option autoImplicit false

namespace BucketTree

/-- A name in a listing: a key, or the common prefix of a group of keys. -/
structure ServedName where
  name : String
  isGroup : Bool
deriving DecidableEq, Repr

namespace ServedName

/-- The name that represents a key. -/
def ofKey (under delimiter : String) (key : Key) : ServedName :=
  if delimiter.isEmpty then ⟨key, false⟩
  else
    match Text.through? delimiter.toList (key.toList.drop under.toList.length) with
    | some first => ⟨under ++ String.ofList first, true⟩
    | none => ⟨key, false⟩

/-- Merges equal neighbours. -/
def squeeze : List ServedName → List ServedName
  | [] => []
  | [e] => [e]
  | e :: next :: rest => if e = next then squeeze (next :: rest) else e :: squeeze (next :: rest)

end ServedName

/-- The largest number of names in a page. -/
def pageCap : Int := 1000

namespace Bucket

/-- All names of a listing, in increasing order. -/
def servedNames (under delimiter : String) (b : Bucket) : List ServedName :=
  ServedName.squeeze ((b.keysUnder under).map (ServedName.ofKey under delimiter))

/-- The names after a token. -/
def namesAfter (token : Option String) (names : List ServedName) : List ServedName :=
  match token with
  | none => names
  | some last => names.filter fun e => last < e.name

/-- The first `size` of the names as a page. -/
def pageOf (names : List ServedName) (size : Nat) : Page :=
  let served := names.take size
  { keys := some ((served.filter fun e => !e.isGroup).map (·.name))
    groups := some ((served.filter fun e => e.isGroup).map (·.name))
    next := if size < names.length then served.getLast?.map (·.name) else none }

/-- The largest number of names that a request allows in its page. -/
def sizeAtMost (maxKeys : Value) : Except Misuse Value :=
  match maxKeys with
  | .null => .ok (.int pageCap)
  | size => size.atMost pageCap

/-- The largest number of names that a request allows in its page, which must be at least one. -/
def pageSize (request : PageRequest) : Except Fault Value :=
  match sizeAtMost request.maxKeys with
  | .error misuse => .error (.misuse misuse)
  | .ok size =>
      match size.isBelow 1 with
      | .error misuse => .error (.misuse misuse)
      | .ok true => .error (.known (.store (some "LIST") none (.badPageSize request.maxKeys)))
      | .ok false => .ok size

/-- The page of the given size that answers a request. -/
def page (request : PageRequest) (size : Nat) (b : Bucket) : Page :=
  let names := b.servedNames (request.under.getD "") (request.delimiter.getD "")
  pageOf (namesAfter request.after names) size

end Bucket

end BucketTree
