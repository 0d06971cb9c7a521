import ServiceContract.Operation.Content
import ServiceContract.Operation.Parameter

/-!
# Methods of operations

An operation becomes a method: its name comes from the identifier of the operation, the result from
its success response, and the parameters are the request body, the bound parameters and, where
callers ask for it, the handle for the response. Parameters of one method have different names; a
name that is taken is told apart by a number.

## Main definitions

* `renameBindings`: bindings with different names.
* `buildMethod`: the method of an operation.
-/

namespace ServiceContract

/-- The name of the parameter for the request body. -/
def requestName : String := "request"

/-- The name of the parameter for the response handle. -/
def responseName : String := "response"

/-- Bindings with names that differ from each other and from those in `taken`. -/
def renameBindings (taken : List String) : List Binding → List Binding
  | [] => []
  | b :: bs =>
    let name := freshName "" taken b.name
    { b with name } :: renameBindings (name :: taken) bs

/-- Notes which bindings got another name. -/
def noteRenamed : List Binding → List Binding → Build Unit
  | b :: bs, c :: cs => do
    if c.name = b.name then pure () else Build.note (.renamedParameter b.name c.name)
    noteRenamed bs cs
  | _, _ => pure ()

/-- The binding of the request body. -/
def requestBinding (type : TypeExpr) (required : Bool) : Binding where
  name := requestName
  wireName := requestName
  location := .body
  type := type
  required := required
  default := none
  defaultValue := .null

/-- The binding of the response handle. -/
def responseBinding : Binding where
  name := responseName
  wireName := responseName
  location := .response
  type := .responseChannel
  required := true
  default := none
  defaultValue := .null

/-- The identifier of an operation without blanks at its ends, empty if it has none. -/
def operationName (operation : Node) : Except Fault String := do
  let id ← operation.get "operationId"
  if id.isTruthy then return String.ofList (Text.trimmed (← id.toValue.plainText).toList)
  else return ""

/-- The media type of the result and its type. -/
def buildResult (r : Resolver) (operation : Node) (owner : String) :
    Build (Option Scalar × TypeExpr) := do
  match ← firstMedia (← successContent r.doc operation) with
  | none => return (none, .noValue)
  | some (mediaType, media) =>
    return (some mediaType, ← r.resolve (← media.get "schema") (owner ++ "Response"))

/-- The media type of the request body and its binding. -/
def buildBody (r : Resolver) (operation : Node) (owner : String) :
    Build (Option Scalar × List Binding) := do
  match ← requestBody r.doc operation with
  | none => return (none, [])
  | some (mediaType, schema, required) =>
    let type ← r.resolve schema (owner ++ "Request")
    return (some mediaType, [requestBinding type required])

/-- The summary of an operation, else its description. -/
def operationSummary (operation : Node) : Except Fault String := do
  let summary ← operation.get "summary"
  if summary.isTruthy then summary.trimmedText
  else (← operation.get "description").trimmedText

/-- Makes the method of an operation and adds it to the session. -/
def buildMethod (r : Resolver) (includeResponse : Bool) (path : Scalar) (pathItem : Node)
    (httpMethod : String) (operation : Node) : Build Method := do
  let operationId ← operationName operation
  if operationId.isEmpty then
    Build.fail ((Fault.unlocated .missingOperationId).locate httpMethod path .null)
  else
    let owner := Naming.pascal operationId
    let (produces, returnType) ← buildResult r operation owner
    let (consumes, body) ← buildBody r operation owner
    let bound ← bindParameters r pathItem operation owner
    let handle := if includeResponse then [responseBinding] else []
    let renamed := renameBindings ((body ++ handle).map Binding.name) bound
    noteRenamed bound renamed
    let summary ← operationSummary operation
    let method : Method :=
      { name := Naming.camel operationId
        returnType
        parameters := body ++ renamed ++ handle
        routing := { httpMethod, path, produces, consumes }
        summary }
    Build.addMethod method
    Build.note (.builtMethod method.name httpMethod path)
    return method

end ServiceContract
