import BucketTree.Failure.Fault

/-!
# Error numbers

A mounted file system reports errors by the error numbers of the operating system. Four kinds of
failure have a number of their own; all others are input/output errors.
-/

set_option autoImplicit false

namespace BucketTree

/-- The error numbers that a mount reports. -/
inductive Errno where
  | noEntry
  | inputOutput
  | badHandle
  | exists
  | notDirectory
  | isDirectory
  | invalid
  | notEmpty
deriving DecidableEq, Repr

namespace Errno

/-- The number itself. -/
def number : Errno → Nat
  | .noEntry => 2
  | .inputOutput => 5
  | .badHandle => 9
  | .exists => 17
  | .notDirectory => 20
  | .isDirectory => 21
  | .invalid => 22
  | .notEmpty => 39

/-- The words of the operating system for the number. -/
def words : Errno → String
  | .noEntry => "No such file or directory"
  | .inputOutput => "Input/output error"
  | .badHandle => "Bad file descriptor"
  | .exists => "File exists"
  | .notDirectory => "Not a directory"
  | .isDirectory => "Is a directory"
  | .invalid => "Invalid argument"
  | .notEmpty => "Directory not empty"

/-- Number and words as one text. -/
def text (e : Errno) : String := s!"[Errno {e.number}] " ++ e.words

/-- The number for a failure. -/
def ofFailure (f : Failure) : Errno :=
  match f.kind with
  | .notFound => .noEntry
  | .alreadyExists => .exists
  | .notEmpty => .notEmpty
  | .invalidPath _ => .invalid
  | _ => .inputOutput

/-- The number for any fault. -/
def ofFault : Fault → Errno
  | .known f => ofFailure f
  | .reported r => ofFailure r.toFailure
  | _ => .inputOutput

end Errno

/-- The end of an operation of a mount without a result. -/
inductive Refusal where
  /-- An error number for the caller. -/
  | errno (e : Errno)
  /-- A fault without an error number. -/
  | fault (f : Fault)

end BucketTree
