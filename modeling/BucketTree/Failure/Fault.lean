import BucketTree.Failure.Misuse
import BucketTree.Failure.Report

/-!
# Faults

A `Fault` ends an operation early: it is a failure of the library, a failure raised by a store, a
misuse, an error of a remote call, or an error that the store raised under another name.
`Fault.toFailure` converts it into a failure. The conversion decides first whether the target does
not exist: the status of a remote call decides it, or the words of its details if the status does
not. `Fault.report` is the report of that failure for an operation and a key given by values of any
type.
-/

set_option autoImplicit false

namespace BucketTree

/-- The status of a remote call. -/
inductive CallStatus where
  | ok
  | cancelled
  | unknown
  | invalidArgument
  | deadlineExceeded
  | notFound
  | alreadyExists
  | permissionDenied
  | resourceExhausted
  | failedPrecondition
  | aborted
  | outOfRange
  | unimplemented
  | internal
  | unavailable
  | dataLoss
  | unauthenticated
deriving DecidableEq, Repr

/-- The end of an operation without a result. -/
inductive Fault where
  /-- A failure that the library reports. -/
  | known (failure : Failure)
  /-- A failure raised by a store. -/
  | reported (report : FailureReport)
  /-- A misuse. -/
  | misuse (misuse : Misuse)
  /-- A failed remote call, with its status if it has one. -/
  | remote (status : Option CallStatus) (details : String)
  /-- The store does not support the operation. -/
  | unsupported (argument : Option Value)
  /-- The store raised an error of the type `typeName`, with or without an argument. -/
  | raised (typeName : String) (argument : Option Value)

namespace CallStatus

/-- The statuses with a code of their own, and the words before the details. -/
def transport? : CallStatus → Option (String × String)
  | .deadlineExceeded => some ("Request timed out", "ERR_TIMEOUT")
  | .resourceExhausted => some ("Rate limit exceeded", "ERR_RATE_LIMIT")
  | .unavailable => some ("Service unavailable", "ERR_UNAVAILABLE")
  | .internal => some ("Internal server error", "ERR_INTERNAL")
  | .unauthenticated => some ("Authentication failed", "ERR_AUTH")
  | .permissionDenied => some ("Access denied", "ERR_AUTH")
  | _ => none

end CallStatus

/-- The words that mean an absent object, for a status that does not decide it. -/
def absenceWords : List String := ["nosuchkey", "not found", "404"]

/-- A character in lower case, as far as `absenceWords` need it. Beyond the ASCII letters, only the
Kelvin sign has one of their letters as its lower case. -/
def plainCase (c : Char) : Char := if c == '\u212a' then 'k' else c.toLower

/-- Tells whether the details of a remote call name an absent object. -/
def saysAbsent (details : String) : Bool :=
  let plain := details.toList.map plainCase
  absenceWords.any fun words => Text.occursIn words.toList plain

/-- The verdict of an error on the target of an operation. -/
inductive Verdict where
  /-- The target does not exist. -/
  | absent (words : String)
  /-- The store failed, with a code or without. -/
  | broken (words : String) (code : Option String)
deriving DecidableEq, Repr

namespace Verdict

/-- The verdict of an error of a remote call. -/
def ofCall (status : Option CallStatus) (details : String) : Verdict :=
  match status with
  | some .notFound => .absent (if details.isEmpty then absentWords else details)
  | some .unknown | none => if saysAbsent details then .absent details else .broken details none
  | some other =>
      match other.transport? with
      | some (words, code) => .broken (words ++ ": " ++ details) (some code)
      | none => .broken details none

/-- The failure in the middle of `operation` on `key`. -/
def failure (operation : Option String) (key : Option Key) : Verdict → Failure
  | .absent words => ⟨.notFound, key, .stated words⟩
  | .broken words code =>
      ⟨.store operation (code.getD (storeCode operation)), key, .stated words⟩

/-- The report of that failure, for an operation and a key of any type. -/
def report (operation key : Value) : Verdict → Except Misuse FailureReport
  | .absent words => FailureReport.ofArguments .notFound [("message", words), ("key", key)]
  | .broken words code =>
      FailureReport.ofArguments .store
        [("message", words), ("operation", operation), ("code", Value.ofOption code),
          ("key", key)]

end Verdict

namespace Fault

/-- The type that a fault shows in messages; a remote call has none. -/
def typeName : Fault → String
  | .known f => f.kind.failureClass.name
  | .reported r => r.failureClass.name
  | .misuse m => m.typeName
  | .remote _ _ => ""
  | .unsupported _ => "NotImplementedError"
  | .raised name _ => name

/-- The errors about the form of a text; they show their argument even when it is absent. -/
def formErrors : List String := ["SyntaxError", "IndentationError", "TabError"]

/-- The text of an argument; an error that reports a failed lookup quotes it. -/
def argumentText (typeName : String) : Option Value → String
  | none => if formErrors.contains typeName then Value.null.plain else ""
  | some argument => if typeName == "KeyError" then argument.shown else argument.plain

/-- The text of a fault. -/
def text : Fault → String
  | .known f => f.message
  | .reported r => r.message.plain
  | .misuse m => m.text
  | .remote _ details => details
  | .unsupported argument => (argument.map Value.plain).getD ""
  | .raised name argument => argumentText name argument

/-- The verdict of a fault that is no failure. -/
def verdict : Fault → Verdict
  | .remote status details => .ofCall status details
  | other => .broken (other.typeName ++ ": " ++ other.text) none

/-- The failure that reports a fault of the store in the middle of `operation` on `key`. -/
def toFailure (operation : Option String) (key : Option Key) : Fault → Failure
  | .known f => f
  | .reported r => r.toFailure
  | other => other.verdict.failure operation key

/-- Tells whether the fault is a failure. -/
def isFailure : Fault → Bool
  | .known _ => true
  | .reported _ => true
  | _ => false

/-- The report of a fault as a failure. -/
def report (operation key : Value) : Fault → Except Misuse FailureReport
  | .known f => .ok (.ofFailure f)
  | .reported r => .ok r
  | other => other.verdict.report operation key

/-- The report of a fault as an error of a remote call. A fault of another kind has no status, and
its text is the details. A failure has a code in the place of the status. -/
def reportAsCall (operation key : Value) : Fault → Except Misuse FailureReport
  | .known f => .error (.mismatch (.call (Value.text f.code).typeName))
  | .reported r => .error (.mismatch (.call r.code.typeName))
  | .remote status details => (Verdict.ofCall status details).report operation key
  | other => (Verdict.ofCall none other.text).report operation key

/-- Tells whether the store does not support the operation. -/
def isUnsupported : Fault → Bool
  | .unsupported _ => true
  | _ => false

end Fault

end BucketTree
