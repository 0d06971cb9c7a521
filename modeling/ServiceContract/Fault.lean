import ServiceContract.Text.Case
import ServiceContract.Value

/-!
# Faults

What keeps a contract from being made. Some faults are *reported*: they name what is wrong with the
document and, once the operation in hand is known, where. The first place that is recorded stays.
All other faults have no text of their own here, except for the name of an unknown target.

## Main definitions

* `Cause`: the reported faults, with `Cause.message`.
* `Place`: the operation in hand.
* `Report`: a cause with its place, with `Report.locate` and `Report.message`.
* `Fault`: all faults.
* `Value.plainText`, `Value.literalText`: the written forms of a value that is to be written.
-/

namespace ServiceContract

/-- What is wrong with a document. -/
inductive Cause where
  /-- A fault described by its text alone. -/
  | other (text : String)
  /-- An operation has no identifier. -/
  | missingOperationId
  /-- A reference leads nowhere. -/
  | unresolvableReference (ref : String) (reason : Option String)
  /-- A schema has a shape for which there is no type. -/
  | unsupportedShape (schema reason : String)
deriving DecidableEq, Inhabited

/-- The text of a cause. -/
def Cause.message : Cause → String
  | .other text => text
  | .missingOperationId => "operation has no operationId; cannot derive a method name"
  | .unresolvableReference ref reason =>
    "cannot resolve reference " ++ Text.quoted ref ++
      match reason with
      | none => ""
      | some reason => if reason.isEmpty then "" else " (" ++ reason ++ ")"
  | .unsupportedShape schema reason =>
    "unsupported schema " ++ Text.quoted schema ++ ": " ++ reason

/-- The operation in hand. Its identifier is the value that the document has, null if that counts as
absent. -/
structure Place where
  httpMethod : Option String
  path : Value
  operationId : Value
deriving Inhabited

/-- A reported fault, with the place where it arose if one is known. -/
structure Report where
  cause : Cause
  place : Option Place
deriving Inhabited

namespace Report

/-- The fault without a place. -/
def of (cause : Cause) : Report :=
  { cause, place := none }

/-- Whether the place is known. A null path is none. -/
def isLocated (r : Report) : Bool :=
  r.place.any fun place => !place.path.isNull

/-- Records the operation in hand, unless the place is known already. -/
def locate (r : Report) (httpMethod : Option String) (path operationId : Value) : Report :=
  if r.isLocated then r
  else
    { r with
      place := some
        { httpMethod, path, operationId := if operationId.isTruthy then operationId else .null } }

/-- The text of the cause, behind the method, the path and the identifier of the operation. -/
def message (r : Report) : String :=
  match r.place with
  | none => r.cause.message
  | some place =>
    if place.path.isNull then r.cause.message
    else
      String.ofList (Text.upper (place.httpMethod.getD "").toList) ++ " " ++ place.path.plain ++
        (if place.operationId.isTruthy then " (" ++ place.operationId.plain ++ ")" else "") ++
        ": " ++ r.cause.message

/-- Whether the text is to be written: the path and the identifier are. -/
def isWritable (r : Report) : Bool :=
  r.place.all fun place => place.path.isWritable && place.operationId.isWritable

end Report

/-- All that keeps a contract from being made. -/
inductive Fault where
  /-- A fault of the document that is reported with its place. -/
  | reported (report : Report)
  /-- A value of the document is of a kind that cannot be read where it stands. -/
  | malformed
  /-- The options name a target that does not exist. -/
  | unknownTarget (target : Value)
  /-- Types were asked for a target that does not exist. -/
  | noTypesFor (target : Value)
  /-- The text is no JSON. -/
  | invalidJson
  /-- The text is no YAML. -/
  | invalidYaml
  /-- There is no such file. -/
  | missingFile
  /-- The references of the document go round in a circle without end. -/
  | endless
deriving Inhabited

namespace Fault

/-- A reported fault whose place is not known yet. -/
def unlocated (cause : Cause) : Fault :=
  .reported (.of cause)

/-- An unsupported shape of the schema with the given label. -/
def unsupported (schema reason : String) : Fault :=
  unlocated (.unsupportedShape schema reason)

/-- A reference that cannot be resolved, with the reason. -/
def unresolvable (ref reason : String) : Fault :=
  unlocated (.unresolvableReference ref (some reason))

/-- Records the operation in hand in a reported fault. -/
def locate (f : Fault) (httpMethod : String) (path : Scalar) (operationId : Value) : Fault :=
  match f with
  | .reported report => .reported (report.locate (some httpMethod) (.scalar path) operationId)
  | f => f

/-- The text of a fault that has one. -/
def message : Fault → String
  | .reported report => report.message
  | .unknownTarget target =>
    "unknown target " ++ target.literal ++ "; expected one of python, kotlin"
  | .noTypesFor target => "no type resolver for target " ++ target.literal
  | _ => ""

end Fault

/-! ### Written forms -/

namespace Value

/-- The plain form of a value that is to be written. -/
def plainText (v : Value) : Except Fault String :=
  if v.isWritable then .ok v.plain else .error .malformed

/-- The literal form of a value that is to be written. -/
def literalText (v : Value) : Except Fault String :=
  if v.isWritable then .ok v.literal else .error .malformed

end Value

end ServiceContract
