import BucketTree.Failure.Cause
import BucketTree.Text.Uppercase

/-!
# Failures

A `Failure` is an error that the library reports: its kind, its key and its cause. Each kind belongs
to a class with a code. A failure in the middle of a deletion or a move contains the progress of the
operation.
-/

set_option autoImplicit false

namespace BucketTree

/-- The report of a move that stopped partway. -/
structure MoveReport where
  /-- The new key of the source, if it is known. -/
  destination : Option Key
  /-- The objects moved, as pairs of old and new key, in order. -/
  moved : List (Key × Key)
  /-- The object whose move did not complete. -/
  failedKey : Option Key
  /-- The object is still at its old key. -/
  sourcePresent : Bool
  /-- A copy of the object is at its new key. -/
  destinationPresent : Bool
deriving DecidableEq, Repr

/-- The classes of failures, by which reports name them. -/
inductive FailureClass where
  | general
  | invalidPath
  | notFound
  | alreadyExists
  | notEmpty
  | store
  | statusQuery
  | listing
  | write
  | read
  | delete
  | partialDelete
  | copy
  | partialMove
  | cancelled
deriving DecidableEq, Repr

/-- The kinds of failure. -/
inductive FailureKind where
  /-- None of the other kinds. -/
  | general (code : String)
  /-- The path was refused. -/
  | invalidPath (path : Value)
  /-- The target does not exist. -/
  | notFound
  /-- The target exists already. -/
  | alreadyExists
  /-- The directory has children. -/
  | notEmpty
  /-- The store failed in the middle of `operation`. -/
  | store (operation : Option String) (code : String)
  /-- It is not known whether the object exists. -/
  | statusQuery
  /-- A page of a listing was not received. -/
  | listing
  /-- A write failed. -/
  | write
  /-- A read failed. -/
  | read
  /-- A deletion failed. -/
  | delete
  /-- A recursive deletion stopped partway. The keys in `deleted` were deleted. -/
  | partialDelete (deleted : List Key) (failedKey : Option Key)
  /-- A copy failed and changed nothing. -/
  | copy (destination : Option Key)
  /-- A move stopped partway. -/
  | partialMove (report : MoveReport)
  /-- The caller cancelled the operation. -/
  | cancelled

/-- A failure that the library reports. -/
structure Failure where
  kind : FailureKind
  /-- The key the failure is about; the source key of a copy or a move. -/
  key : Option Key
  cause : Cause

namespace FailureClass

/-- The name of a class. -/
def name : FailureClass → String
  | .general => "ObjectFSError"
  | .invalidPath => "InvalidPathError"
  | .notFound => "NotFoundError"
  | .alreadyExists => "AlreadyExistsError"
  | .notEmpty => "DirectoryNotEmptyError"
  | .store => "StoreError"
  | .statusQuery => "StatusQueryError"
  | .listing => "ListingError"
  | .write => "WriteError"
  | .read => "ReadError"
  | .delete => "DeleteError"
  | .partialDelete => "PartialDeleteError"
  | .copy => "CopyError"
  | .partialMove => "PartialRenameError"
  | .cancelled => "OperationCancelledError"

/-- The code of a class, unless a failure has one of its own. -/
def code : FailureClass → String
  | .general => "ERR_UNKNOWN"
  | .invalidPath => "ERR_INVALID_PATH"
  | .notFound => "ERR_NOT_FOUND"
  | .alreadyExists => "ERR_ALREADY_EXISTS"
  | .notEmpty => "ERR_NOT_EMPTY"
  | .store => "ERR_STORE"
  | .statusQuery => "ERR_STATUS_QUERY"
  | .listing => "ERR_LISTING"
  | .write => "ERR_WRITE"
  | .read => "ERR_READ"
  | .delete => "ERR_DELETE"
  | .partialDelete => "ERR_PARTIAL_DELETE"
  | .copy => "ERR_COPY"
  | .partialMove => "ERR_PARTIAL_RENAME"
  | .cancelled => "ERR_CANCELLED"

end FailureClass

/-- The code of a store failure in the middle of `operation`, if no other code is given. -/
def storeCode : Option String → String
  | none => FailureClass.store.code
  | some operation =>
      if operation.isEmpty then FailureClass.store.code
      else FailureClass.store.code ++ "_" ++ Text.uppercase operation

/-- The words for a target that does not exist, if no others are given. -/
def absentWords : String := "Object does not exist"

namespace FailureKind

/-- The class of a kind. -/
def failureClass : FailureKind → FailureClass
  | .general _ => .general
  | .invalidPath _ => .invalidPath
  | .notFound => .notFound
  | .alreadyExists => .alreadyExists
  | .notEmpty => .notEmpty
  | .store _ _ => .store
  | .statusQuery => .statusQuery
  | .listing => .listing
  | .write => .write
  | .read => .read
  | .delete => .delete
  | .partialDelete _ _ => .partialDelete
  | .copy _ => .copy
  | .partialMove _ => .partialMove
  | .cancelled => .cancelled

/-- The code of the kind. -/
def code : FailureKind → String
  | .general code => code
  | .store _ code => code
  | other => other.failureClass.code

end FailureKind

namespace Failure

/-- The message of the failure, without its code. -/
def message (f : Failure) : String := f.cause.text

/-- The code of the failure. -/
def code (f : Failure) : String := f.kind.code

/-- A refused path. -/
def ofRefusal (r : PathRefusal) : Failure := ⟨.invalidPath r.path, none, .path r.fault⟩

/-- A target that does not exist. -/
def notFound (key : Key) (cause : Cause) : Failure := ⟨.notFound, some key, cause⟩

/-- A target that exists already. -/
def alreadyExists (key : Key) (cause : Cause) : Failure := ⟨.alreadyExists, some key, cause⟩

/-- A failure of the store in the middle of `operation`. -/
def store (operation : Option String) (key : Option Key) (cause : Cause) : Failure :=
  ⟨.store operation (storeCode operation), key, cause⟩

/-- A status that could not be read. -/
def statusQuery (key : Key) (cause : Cause) : Failure := ⟨.statusQuery, some key, cause⟩

/-- A page that was not received. -/
def listing (under : Option String) (cause : Cause) : Failure := ⟨.listing, under, cause⟩

/-- A write that failed. -/
def write (key : Key) (cause : Cause) : Failure := ⟨.write, some key, cause⟩

/-- A read that failed. -/
def read (key : Key) (cause : Cause) : Failure := ⟨.read, some key, cause⟩

/-- A deletion that failed. -/
def delete (key : Key) (cause : Cause) : Failure := ⟨.delete, some key, cause⟩

/-- A recursive deletion that stopped partway. -/
def partialDelete (key : Key) (deleted : List Key) (failedKey : Option Key) (cause : Cause) :
    Failure :=
  ⟨.partialDelete deleted failedKey, some key, cause⟩

/-- A copy that failed. -/
def copy (source destination : Key) (cause : Cause) : Failure :=
  ⟨.copy (some destination), some source, cause⟩

/-- A move that stopped partway. -/
def partialMove (source : Key) (report : MoveReport) (cause : Cause) : Failure :=
  ⟨.partialMove report, some source, cause⟩

/-- A cancelled operation. The context is also the subject of the failure. -/
def cancelled (context : Option String) : Failure := ⟨.cancelled, context, .cancelled context⟩

/-- Tells whether the target does not exist. -/
def isNotFound (f : Failure) : Bool :=
  match f.kind with
  | .notFound => true
  | _ => false

theorem isNotFound_eq_false {f : Failure} (h : f.kind ≠ .notFound) : f.isNotFound = false := by
  unfold isNotFound
  split
  next hkind => exact absurd hkind h
  next => rfl

/-- Tells whether the failure is that of a deletion, complete or partial. -/
def isDelete (f : Failure) : Bool :=
  match f.kind with
  | .delete => true
  | .partialDelete _ _ => true
  | _ => false

end Failure

end BucketTree
