import BucketTree.Argument
import BucketTree.Failure.Basic

/-!
# Reports of failures

The report of a failure: its class, message, code and key, and the other attributes of its class.
The failures of the library have reports (`FailureReport.ofFailure`). A store may raise a failure by
a class and named arguments of any type (`FailureReport.ofArguments`); the report keeps those
values.
-/

set_option autoImplicit false

namespace BucketTree

/-- A failure as it is reported. -/
structure FailureReport where
  failureClass : FailureClass
  message : Value
  code : Value
  key : Value
  /-- The other attributes of the class, by name. -/
  details : List (String × Value)

/-- The parameters of a class of failures. -/
structure FailureParameters where
  /-- The names of the required parameters. -/
  required : List String
  /-- The names of the other parameters, with their defaults. -/
  optional : List (String × Value)

namespace FailureClass

/-- The parameters of a class. -/
def parameters : FailureClass → FailureParameters
  | .general => ⟨["message"], [("code", general.code), ("key", .null)]⟩
  | .invalidPath => ⟨["message"], [("path", .null)]⟩
  | .notFound => ⟨[], [("message", absentWords), ("key", .null)]⟩
  | .store => ⟨["message"], [("operation", .null), ("code", .null), ("key", .null)]⟩
  | .listing => ⟨["message"], [("prefix", .null)]⟩
  | .delete => ⟨["message"], [("key", .null), ("code", delete.code)]⟩
  | .partialDelete =>
      ⟨["message"], [("key", .null), ("deleted", .list []), ("failed_key", .null)]⟩
  | .copy => ⟨["message"], [("src_key", .null), ("dst_key", .null)]⟩
  | .partialMove =>
      ⟨["message", "src_key", "dst_key"],
        [("renamed", .list []), ("failed_key", .null), ("source_present", .bool true),
          ("destination_present", .bool false)]⟩
  | .cancelled => ⟨[], [("message", (Cause.cancelled none).text), ("key", .null)]⟩
  | _ => ⟨["message"], [("key", .null)]⟩

/-- The name of the parameter for the key of a failure. A refused path has no key. -/
def keyName? : FailureClass → Option String
  | .invalidPath => none
  | .listing => some "prefix"
  | .copy => some "src_key"
  | .partialMove => some "src_key"
  | _ => some "key"

end FailureClass

/-- The value of a name among named values. -/
def valueOf? (name : String) (values : List (String × Value)) : Option Value :=
  (values.find? fun v => v.1 == name).map (·.2)

namespace FailureReport

/-- The code of a store failure: the given one, or else the one for the operation. -/
def storeCodeOf (operation code : Value) : Except Misuse Value :=
  match code with
  | .null =>
      if operation.isTruthy then
        (operation.textFor "upper").map fun name => .text (storeCode (some name))
      else .ok (.text (storeCode none))
  | given => .ok given

/-- The failure of a class with named arguments. An unknown argument is refused first, then a
missing one. -/
def ofArguments (failureClass : FailureClass) (arguments : List (String × Value)) :
    Except Misuse FailureReport := do
  let ⟨required, optional⟩ := failureClass.parameters
  let request := failureClass.name ++ ".__init__"
  let names := required ++ optional.map (·.1)
  if let some (name, _) := arguments.find? fun a => !names.contains a.1 then
    throw (.mismatch (.unknownArgument request name))
  let missing := required.filter fun name => !arguments.any fun a => a.1 == name
  unless missing.isEmpty do throw (.mismatch (.missingArguments request missing))
  let given (name : String) : Value := (valueOf? name (arguments ++ optional)).getD .null
  let named (names : List String) := names.map fun name => (name, given name)
  let code ← match failureClass with
    | .general => pure (given "code")
    | .delete => pure (given "code")
    | .store => storeCodeOf (given "operation") (given "code")
    | other => pure (.text other.code)
  let details ← match failureClass with
    | .invalidPath => pure (named ["path"])
    | .store => pure (named ["operation"])
    | .listing => pure (named ["prefix"])
    | .partialDelete => do
        let deleted ← (given "deleted").items
        pure (("deleted", .list deleted) :: named ["failed_key"])
    | .copy => pure (named ["src_key", "dst_key"])
    | .partialMove => do
        let moved ← (given "renamed").items
        pure (named ["src_key", "dst_key"] ++ ("renamed", .list moved) ::
          named ["failed_key", "source_present", "destination_present"])
    | _ => pure []
  let key := (failureClass.keyName?.map given).getD .null
  return ⟨failureClass, given "message", code, key, details⟩

/-- A cancelled operation, with a context of any type. -/
def cancelled (context : Value) : FailureReport :=
  let words := (Cause.cancelled (if context.isTruthy then some context.plain else none)).text
  ⟨.cancelled, words, FailureClass.cancelled.code, context, []⟩

/-- A list of texts. -/
def texts (l : List String) : Value := .list (l.map .text)

/-- A list of pairs of keys. -/
def pairs (l : List (Key × Key)) : Value := .list (l.map fun (a, b) => texts [a, b])

/-- The details of a kind of failure, besides its code and its key. -/
def detailsOf (key : Value) : FailureKind → List (String × Value)
  | .invalidPath path => [("path", path)]
  | .store operation _ => [("operation", Value.ofOption operation)]
  | .listing => [("prefix", key)]
  | .partialDelete deleted failedKey =>
      [("deleted", texts deleted), ("failed_key", Value.ofOption failedKey)]
  | .copy destination => [("src_key", key), ("dst_key", Value.ofOption destination)]
  | .partialMove report =>
      [("src_key", key), ("dst_key", Value.ofOption report.destination),
        ("renamed", pairs report.moved), ("failed_key", Value.ofOption report.failedKey),
        ("source_present", .bool report.sourcePresent),
        ("destination_present", .bool report.destinationPresent)]
  | _ => []

/-- The report of a failure of the library. -/
def ofFailure (f : Failure) : FailureReport :=
  let key := Value.ofOption f.key
  ⟨f.kind.failureClass, f.message, f.code, key, detailsOf key f.kind⟩

/-- All attributes of a report except its class and message, by name. -/
def attributes (r : FailureReport) : List (String × Value) :=
  [("code", r.code), ("key", r.key)] ++ r.details

/-- The report as one line: code and message. -/
def line (r : FailureReport) : String := r.code.plain ++ ": " ++ r.message.plain

/-- The text of a value that is a text. -/
def text? : Value → Option String
  | .text s => some s
  | _ => none

/-- The kind of a reported failure. -/
def kind (r : FailureReport) : FailureKind :=
  match r.failureClass with
  | .general => .general r.code.plain
  | .invalidPath => .invalidPath ((valueOf? "path" r.details).getD .null)
  | .notFound => .notFound
  | .alreadyExists => .alreadyExists
  | .notEmpty => .notEmpty
  | .store => .store ((valueOf? "operation" r.details).bind text?) r.code.plain
  | .statusQuery => .statusQuery
  | .listing => .listing
  | .write => .write
  | .read => .read
  | .delete => .delete
  | .partialDelete => .partialDelete [] ((valueOf? "failed_key" r.details).bind text?)
  | .copy => .copy ((valueOf? "dst_key" r.details).bind text?)
  | .partialMove =>
      .partialMove ⟨(valueOf? "dst_key" r.details).bind text?, [],
        (valueOf? "failed_key" r.details).bind text?, true, false⟩
  | .cancelled => .cancelled

/-- The failure with the kind, the key and the words of a report. -/
def toFailure (r : FailureReport) : Failure := ⟨r.kind, text? r.key, .stated r.message.plain⟩

/-- The class of a failure is that of its report. -/
@[simp]
theorem failureClass_ofFailure (f : Failure) :
    (ofFailure f).failureClass = f.kind.failureClass := rfl

/-- The class of a report is that of its failure. -/
@[simp]
theorem failureClass_toFailure (r : FailureReport) :
    r.toFailure.kind.failureClass = r.failureClass := by
  cases h : r.failureClass <;> simp [toFailure, kind, h, FailureKind.failureClass]

end FailureReport

end BucketTree
