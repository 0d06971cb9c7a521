import ServiceContract.Schema.Resolve

/-!
# Parameters of operations

An operation has its own parameters and those of its path item. A parameter is known by its name and
its location, in any letter case; one that occurs again replaces the earlier one in its place.
Parameters in the path, in the query and in headers are bound, in this order; all others are passed
over.

## Main definitions

* `ParameterKey`, `collectParameters`: the parameters of an operation.
* `defaultText`, `parameterDefault`: the text of a default, and the default of a parameter.
* `bindParameter`, `bindParameters`: the bindings.
-/

namespace ServiceContract

/-- What a parameter is known by. -/
structure ParameterKey where
  name : Scalar
  location : String
deriving DecidableEq, Inhabited

/-- Whether two keys are of the same parameter. -/
def ParameterKey.isSame (a b : ParameterKey) : Bool :=
  a.location == b.location && a.name.isSame b.name

/-- The name of a parameter, empty if it has none. -/
def parameterName (parameter : Node) : Except Fault Node := do
  return (← parameter.get? "name").getD (.leaf .nowhere (.text ""))

/-- The location of a parameter in small letters, empty if it has none. -/
def parameterLocation (parameter : Node) : Except Fault String := do
  match ← parameter.get? "in" with
  | none => return ""
  | some location =>
    return String.ofList (Text.lower (← location.toValue.plainText).toList)

/-- The key of a parameter. -/
def parameterKey (parameter : Node) : Except Fault ParameterKey := do
  let name ← parameterName parameter
  let location ← parameterLocation parameter
  return { name := ← name.asScalar, location }

/-- The parameters after one more: it replaces the one with the same key or comes last. -/
def insertParameter (key : ParameterKey) (parameter : Node) :
    List (ParameterKey × Node) → List (ParameterKey × Node)
  | [] => [(key, parameter)]
  | p :: ps =>
    if p.1.isSame key then (p.1, parameter) :: ps else p :: insertParameter key parameter ps

/-- The parameters after the given entries, of which each may be a reference. -/
def mergeParameters (doc : Document) :
    List (ParameterKey × Node) → List Node → Except Fault (List (ParameterKey × Node))
  | merged, [] => .ok merged
  | merged, entry :: entries => do
    let parameter ← doc.follow entry
    mergeParameters doc (insertParameter (← parameterKey parameter) parameter merged) entries

/-- The parameters of a path item and an operation by their keys, in order of first occurrence. -/
def collectKeyedParameters (doc : Document) (pathItem operation : Node) :
    Except Fault (List (ParameterKey × Node)) := do
  let shared ← (← pathItem.get "parameters").itemsIfAny
  let own ← (← operation.get "parameters").itemsIfAny
  mergeParameters doc [] (shared ++ own)

/-- The parameters of a path item and an operation, in order of first occurrence. -/
def collectParameters (doc : Document) (pathItem operation : Node) : Except Fault (List Node) := do
  return (← collectKeyedParameters doc pathItem operation).map Prod.snd

mutual

/-- The text of a default, none for null: truth values in small letters, the items of a list joined
by commas. A list that holds itself, with nothing but lists between, has no end. -/
def defaultText : Value → Except Fault (Option String)
  | .scalar .null => .ok none
  | .scalar (.bool b) => .ok (some (if b then "true" else "false"))
  | .list items => do return some (← defaultTexts items)
  | .again true => .error .endless
  | v => do return some (← v.plainText)

/-- The texts of defaults joined by commas; an absent one is empty. -/
def defaultTexts : List Value → Except Fault String
  | [] => .ok ""
  | [v] => do return (← defaultText v).getD ""
  | v :: vs => do
    let first ← defaultText v
    return first.getD "" ++ "," ++ (← defaultTexts vs)

end

/-- The default of a parameter at a location, as text and as value. Only one in the query has
any. -/
def parameterDefault (location : Location) (schema : Node) :
    Except Fault (Option String × Value) := do
  if location ≠ .query then return (none, .null)
  let value := (← schema.get "default").toValue
  return (← defaultText value, value)

/-- The locations of parameters that are bound, in the order of their bindings. -/
def boundLocations : List Location := [.path, .query, .header]

/-- The binding of a parameter at a location. A parameter in the path is required; one in the query
may have a default. The owner names the types of inline schemas. -/
def bindParameter (r : Resolver) (owner : String) (location : Location) (parameter : Node) :
    Build Binding := do
  let wireName ← (← parameterName parameter).asText
  let schema := (← parameter.get "schema").orEmpty
  let type ← r.resolve schema (owner ++ Naming.pascal wireName)
  let required := (← parameter.get "required").isTruthy
  let default ← parameterDefault location schema
  return {
    name := Build.nonEmpty (Naming.camel wireName) wireName
    wireName, location, type
    required := location == .path || required
    default := default.1
    defaultValue := default.2 }

/-- The bindings of parameters at one location. -/
def bindAll (r : Resolver) (owner : String) (location : Location) : List Node → Build (List Binding)
  | [] => pure []
  | parameter :: parameters => do
    let binding ← bindParameter r owner location parameter
    return binding :: (← bindAll r owner location parameters)

/-- The bindings of parameters, location by location. -/
def bindLocations (r : Resolver) (owner : String) (parameters : List (String × Node)) :
    List Location → Build (List Binding)
  | [] => pure []
  | location :: locations => do
    let here := (parameters.filter fun p => p.1 == location.name).map Prod.snd
    let bindings ← bindAll r owner location here
    return bindings ++ (← bindLocations r owner parameters locations)

/-- Notes the parameters that are passed over. -/
def noteSkipped : List (String × Node) → Build Unit
  | [] => pure ()
  | (location, parameter) :: parameters => do
    if (boundLocations.map Location.name).contains location then pure ()
    else
      let name ← parameter.get "name"
      Build.note (.skippedParameter location name.toValue)
    noteSkipped parameters

/-- The bindings of the parameters of an operation: path, then query, then header. -/
def bindParameters (r : Resolver) (pathItem operation : Node) (owner : String) :
    Build (List Binding) := do
  let keyed ← collectKeyedParameters r.doc pathItem operation
  let parameters := keyed.map fun p => (p.1.location, p.2)
  noteSkipped parameters
  bindLocations r owner parameters boundLocations

end ServiceContract
