import ServiceContract.Operation.Method

/-!
# From documents to contracts

The operations of a document become methods in the order of the paths and, for each path, in a fixed
order of the HTTP methods. The first fault ends the work, and a reported fault gets the place of its
operation.

## Main definitions

* `httpMethods`: the HTTP methods in order.
* `contractName`: the name of a contract.
* `buildPaths`: the methods of all operations.
* `Contract.build`: the contract of a document, with the events on the way.
-/

namespace ServiceContract

/-- The keys of operations in a path item, in the order of their methods. -/
def httpMethods : List String :=
  ["get", "put", "post", "delete", "options", "head", "patch", "trace"]

/-- The name for a title: its Pascal-case form, ending in `Api`. -/
def nameOfTitle (title : String) : String :=
  let base := Naming.pascalChars title.toList
  if ['i', 'p', 'a'].isPrefixOf (Text.lower base).reverse then
    String.ofList (base.take (base.length - 3)) ++ "Api"
  else String.ofList base ++ "Api"

/-- The text of an entry in the information about a document, empty if it has none. -/
def infoText (doc : Document) (key : String) : Except Fault String := do
  let info := (← doc.root.get "info").orEmpty
  match ← info.get? key with
  | none => return ""
  | some n => n.toValue.plainText

/-- The name of a contract: the chosen one, else one made from the title. -/
def contractName (doc : Document) (chosen : Option String) : Except Fault String := do
  let title ← infoText doc "title"
  match chosen with
  | some name => return if name.isEmpty then nameOfTitle title else name
  | none => return nameOfTitle title

/-- A step in which a reported fault gets the place of an operation. -/
def locating {α : Type} (httpMethod : String) (path : Scalar) (operation : Node) (step : Build α) :
    Build α := fun s =>
  match step s with
  | (.error fault, s) =>
    let id := match operation.get "operationId" with | .ok n => n.toValue | .error _ => .null
    (.error (fault.locate httpMethod path id), s)
  | answer => answer

/-- Makes the methods for the given HTTP methods of a path item. -/
def buildOperations (r : Resolver) (includeResponse : Bool) (path : Scalar) (pathItem : Node) :
    List String → Build Unit
  | [] => pure ()
  | httpMethod :: rest => do
    let operation ← pathItem.get httpMethod
    if operation.isNull then pure ()
    else
      let _ ← locating httpMethod path operation
        (buildMethod r includeResponse path pathItem httpMethod operation)
    buildOperations r includeResponse path pathItem rest

/-- Makes the methods for paths with their path items. -/
def buildPaths (r : Resolver) (includeResponse : Bool) : List (Scalar × Node) → Build Unit
  | [] => pure ()
  | (path, pathItem) :: paths => do
    buildOperations r includeResponse path pathItem.orEmpty httpMethods
    buildPaths r includeResponse paths

/-- The paths of a document. -/
def documentPaths (doc : Document) : Except Fault (List (Scalar × Node)) := do
  (← doc.root.get "paths").entriesIfAny

/-- The contract that the methods and declarations of a session make up. -/
def Contract.ofSession (name title version : String) (isInterface : Bool) (s : Session) :
    Contract :=
  { name, isInterface, title, version, methods := s.methods, declarations := s.declarations }

/-- The contract of a document. -/
def Contract.buildFrom (doc : Document) (options : Options) : Except Fault Contract × List Event :=
  let start : Except Fault (String × String × String × Session) := do
    let name ← contractName doc options.name
    let title ← infoText doc "title"
    let version ← infoText doc "version"
    return (name, title, version, ← Session.start doc)
  match start with
  | .error fault => (.error fault, [])
  | .ok (name, title, version, s) =>
    let r : Resolver := { doc, primitives := options.target.primitives }
    match (do buildPaths r options.includeResponse (← documentPaths doc) : Build Unit) s with
    | (.error fault, s) => (.error fault, s.events)
    | (.ok (), s) => (.ok (.ofSession name title version options.isInterface s), s.events)

/-- The contract of a document under the chosen options. -/
def Contract.build (doc : Document) (options : Options) : Except Fault Contract :=
  (Contract.buildFrom doc options).1

end ServiceContract
