import BucketTree.Content.Sparse
import BucketTree.Number.Word

/-!
# Requests to a store

The seven requests to a store, and the type of the answer to each. The metadata and the pages that a
store returns may be malformed: a size may be of any type, and a page may lack its lists. The
numbers in a request may be of any type too, and the store checks them when it uses them.
-/

set_option autoImplicit false

namespace BucketTree

/-- The requests by name. -/
inductive Operation where
  | head
  | get
  | put
  | delete
  | copy
  | list
  | openRange
deriving DecidableEq, Repr

/-- The metadata of an object. -/
structure Metadata where
  contentLength : Value
  modified : Value

/-- A request for a page of a listing. Absent texts count as empty. -/
structure PageRequest where
  /-- The text that the keys start with. -/
  under : Option String
  /-- The text at which keys are grouped. -/
  delimiter : Option String
  /-- The largest number of names in the page, absent for the maximum of the store. -/
  maxKeys : Value
  /-- The name after which the page starts. -/
  after : Option String

/-- A page of a listing. -/
structure Page where
  keys : Option (List Key)
  /-- The common prefixes of groups of keys. -/
  groups : Option (List String)
  /-- The token of the next page. -/
  next : Option String

/-- The data of an upload: bytes, or a stream that is read up to the announced length. -/
structure Upload where
  content : Sparse
  isStream : Bool
  /-- The announced length, if there is one. -/
  length : Value
  /-- The block of the content, if it has other holders already. -/
  block : Option BlockNumber

namespace Upload

/-- An upload of the given bytes without an announced length. -/
def ofBytes (bytes : Bytes) : Upload := ⟨.ofBytes bytes, false, .null, none⟩

/-- An upload of a body as a whole. -/
def ofBody (body : Body) : Upload :=
  ⟨.ofBytes body.bytes, false, .int body.bytes.length, body.block⟩

/-- The bytes that arrive at the store. A stream is read up to the announced length. A negative
length means no limit. -/
def received (u : Upload) : Except Misuse Bytes :=
  match u.isStream, u.length with
  | false, _ => .ok u.content.bytes
  | true, .null => .ok u.content.bytes
  | true, length => do
      if ← length.isBelow 0 then return u.content.bytes
      if !(← length.isBelow u.content.length) then return u.content.bytes
      return (u.content.take (← length.cutPoint).toNat).bytes

/-- Tells whether the announced length, if there is one, is the given number of bytes. -/
def announces (size : Nat) (u : Upload) : Bool :=
  match u.length with
  | .null => true
  | length => length.isInteger size

/-- Tells whether the upload is a stream for which memory has no room. -/
def isTooLarge (u : Upload) : Bool := u.isStream && Word.memoryLimit ≤ u.content.length

end Upload

/-- A request to a store. -/
inductive Request where
  | head (key : Key)
  | get (key : Key)
  | put (key : Key) (upload : Upload)
  | delete (key : Key)
  | copy (source destination : Key)
  | list (page : PageRequest)
  | openRange (key : Key) (offset : Value)

namespace Request

/-- The type of the answer to a request. The answer to an upload is the block of memory of the
stored content. -/
abbrev Answer : Request → Type
  | .head _ => Option Metadata
  | .get _ => Body
  | .put _ _ => Option BlockNumber
  | .delete _ => Unit
  | .copy _ _ => Unit
  | .list _ => Option Page
  | .openRange _ _ => Stream

/-- The name of a request. -/
def operation : Request → Operation
  | .head _ => .head
  | .get _ => .get
  | .put _ _ => .put
  | .delete _ => .delete
  | .copy _ _ => .copy
  | .list _ => .list
  | .openRange _ _ => .openRange

/-- The key of a request: the source of a copy, or the prefix of a listing if one is given. -/
def subject? : Request → Option Key
  | .head key => some key
  | .get key => some key
  | .put key _ => some key
  | .delete key => some key
  | .copy source _ => some source
  | .list page => page.under
  | .openRange key _ => some key

end Request

end BucketTree
