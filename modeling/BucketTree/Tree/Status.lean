import BucketTree.Store.Action
import BucketTree.Time.Epoch

/-!
# Status of an object

One `head` request gives the size and the age of an object. A missing object is an answer. Any other
fault, and metadata without a size and a time, are failures: they leave open whether the object
exists.
-/

set_option autoImplicit false

namespace BucketTree

/-- Size and modification time of an object. -/
structure ObjectStatus where
  size : Nat
  modifiedMillis : Int
deriving DecidableEq, Repr

namespace Metadata

/-- How metadata are shown inside a message. -/
def shown : Option Metadata → String
  | none => Value.null.shown
  | some m =>
      "ObjectMetadata(content_length=" ++ m.contentLength.shown ++ ", last_modified=" ++
        m.modified.shown ++ ", etag=None)"

/-- Size and modification time in milliseconds, if the metadata have both. -/
def measures? : Option Metadata → Option (Int × Int)
  | some ⟨length, .moment time⟩ =>
      length.toInteger.toOption.map fun size => (size, epochMillis time.epochMicros)
  | _ => none

/-- Tells whether the size in the metadata is infinite. -/
def isInfinite : Option Metadata → Bool
  | some ⟨.infinite _, _⟩ => true
  | _ => false

/-- The status given by the metadata of the object at a key. An infinite size is a misuse and no
failure of the query. -/
def status (key : Key) (metadata : Option Metadata) : Except Fault ObjectStatus :=
  if isInfinite metadata then .error (.misuse .infinite)
  else
    match measures? metadata with
    | none => .error (.known (.statusQuery key (.malformedMetadata key (shown metadata))))
    | some (.negSucc n, _) =>
        .error (.known (.statusQuery key (.negativeSize key (.negSucc n))))
    | some (.ofNat size, millis) => .ok ⟨size, millis⟩

end Metadata

/-- The status of the object at a key, if there is one. -/
def statusOf (key : Key) : Action (Option ObjectStatus) := do
  match ← Action.lift (Program.head key) with
  | .ok metadata =>
      match Metadata.status key metadata with
      | .ok status => return some status
      | .error fault => throw fault
  | .error fault =>
      let failure := fault.toFailure (some "HEAD") (some key)
      if failure.isNotFound then return none
      else Action.fail (.statusQuery key (.queryFailed key failure.message))

end BucketTree
