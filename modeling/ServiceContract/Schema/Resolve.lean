import ServiceContract.Schema.Enumeration
import ServiceContract.Schema.Primitive
import ServiceContract.Schema.Session
import ServiceContract.Schema.Shape

/-!
# From schemas to types

A schema is resolved to a type. Primitive schemas, lists and maps have a type of their own; objects
with properties, enumerations and `allOf` schemas get a declaration and are mentioned by its name.

* A reference to a schema that declares a type gets the name of its component, and every later use
  of the reference gives the same type. The name is recorded before the fields are resolved, so that
  schemas may mention themselves.
* A reference to any other schema is an alias for the type of that schema. An alias in progress must
  not be met again, since its type would be infinite.
* An inline schema that declares a type gets a name from the place where it is used, its hint, and
  keeps it wherever the same node is used again.

One step of resolution is defined in terms of the resolution of other schemas (`resolveStep`), and a
bound on the number of steps inside one another closes the recursion (`resolveWithin`).

## Main definitions

* `Resolver`: a document with the built-in types of a target.
* `Resolver.resolveStep`, `Resolver.resolveWithin`, `Resolver.resolve`.
-/

namespace ServiceContract

/-- What resolution depends on and does not change: the document and the built-in types. -/
structure Resolver where
  doc : Document
  primitives : PrimitiveTable

namespace Resolver

variable (r : Resolver)

/-! ### Declarations -/

/-- The type of the values of an enumeration, a text type unless the schema states another one. -/
def enumValueType (schema : Node) : Except Fault TypeExpr := do
  let stated ← schema.get "type"
  let type : Node :=
    match stated with
    | .leaf _ (.text _) => stated
    | _ => .leaf .nowhere (.text "string")
  let found ← r.primitives.lookup type (← schema.get "format")
  return .primitive (found.getD r.primitives.textType)

/-- The names among required names, which have to be scalars. -/
def requiredNames : List Node → Except Fault (List Scalar)
  | [] => .ok []
  | n :: ns => do return (← n.asScalar) :: (← requiredNames ns)

/-- The fields for the properties of a record. -/
def resolveFields (resolve : Node → String → Build TypeExpr) (owner : String)
    (required : List Scalar) : List (Scalar × Node) → Build (List Field)
  | [] => pure []
  | (key, property) :: properties => do
    let wireName ← (Node.leaf .nowhere key).asText
    let property := property.orEmpty
    let type ← resolve property (owner ++ Naming.pascal wireName)
    let description ← (← property.get "description").trimmedText
    let field : Field :=
      { name := Build.nonEmpty (Naming.camel wireName) wireName
        wireName, type, required := required.contains key, description }
    return field :: (← resolveFields resolve owner required properties)

/-- The properties and required names of a schema, those of all members if it has an `allOf`. -/
def shapeOf (schema : Node) (name : String) : Except Fault Shape := do
  if ← schema.has "allOf" then r.doc.flatten schema name else Shape.ofObject schema

/-- Declares the type of a schema under a name. -/
def declareType (resolve : Node → String → Build TypeExpr) (schema : Node) (name : String) :
    Build Unit := do
  let description ← (← schema.get "description").trimmedText
  if ← schema.has "enum" then
    let valueType ← r.enumValueType schema
    let members ← enumMembers ((← (← schema.get "enum").items).map Node.toValue)
    Build.declare (.enumeration name valueType members description)
  else
    let shape ← r.shapeOf schema name
    let required ← requiredNames shape.required
    let fields ← resolveFields resolve name required shape.properties
    Build.declare (.record name fields description)

/-! ### References and inline schemas -/

/-- The type of a reference. -/
def resolveReference (resolve : Node → String → Build TypeExpr) (ref : String) :
    Build TypeExpr := do
  match ← Build.reference? ref with
  | some type => return type
  | none =>
    let target ← r.doc.unwrap (← r.doc.resolve ref) (referenceName ref)
    if ← target.declaresType then
      let name ← Build.reserveReference ref
      r.declareType resolve target name
      return .declared name
    else if (← Build.read Session.resolving).contains ref then
      Build.fail (.unsupported (referenceName ref) "alias refers to itself")
    else
      let type ← Build.whileResolving ref (resolve target (Naming.pascal (referenceName ref)))
      Build.remember ref type
      return type

/-- The type of a schema that is declared under a name of its own. -/
def resolveInline (resolve : Node → String → Build TypeExpr) (schema : Node) (hint : String) :
    Build TypeExpr := do
  match ← Build.inline? schema with
  | some name => return .declared name
  | none =>
    let name ← Build.reserveInline schema (Build.nonEmpty hint "Inline")
    r.declareType resolve schema name
    return .declared name

/-! ### Schemas -/

/-- A hint with an ending; there is no hint without a beginning. -/
def extendHint (hint ending : String) : String :=
  if hint.isEmpty then "" else hint ++ ending

/-- The type of an object without properties: a map if it says what its other values are. -/
def resolveObject (resolve : Node → String → Build TypeExpr) (schema : Node) (hint : String) :
    Build TypeExpr := do
  match ← schema.get "additionalProperties" with
  | .map address (entry :: entries) =>
    return .map (← resolve (.map address (entry :: entries)) (extendHint hint "Value"))
  | _ => return .primitive r.primitives.anyObject

/-- The type of a schema that is no reference, no wrapper, and has neither `allOf` nor `enum`, by
the type that it states. -/
def resolveStated (resolve : Node → String → Build TypeExpr) (schema : Node) (hint label : String) :
    Build TypeExpr := do
  let type ← schema.statedType label
  if type.isText "array" then
    return .list (← resolve (← schema.get "items").orEmpty (extendHint hint "Item"))
  else if type.isText "object" || (← schema.has "properties") then
    if (← schema.get "properties").isTruthy then r.resolveInline resolve schema hint
    else r.resolveObject resolve schema hint
  else if type.isNull then return .primitive r.primitives.anyType
  else
    match ← r.primitives.lookup type (← schema.get "format") with
    | some name => return .primitive name
    | none => Build.fail (.unsupported label ("unknown type " ++ (← type.toValue.literalText)))

/-- One step of resolution, given how other schemas are resolved. The hint names the type of a
schema that has no name of its own; it may be empty. -/
def resolveStep (resolve : Node → String → Build TypeExpr) (schema : Node) (hint : String) :
    Build TypeExpr := do
  let label := Build.nonEmpty hint "<inline>"
  if schema.isNull then return .noValue
  else if ← schema.has "$ref" then
    r.resolveReference resolve (← (← schema.get "$ref").asText)
  else
    match ← schema.stripLayer label with
    | some inner => resolve (← r.doc.unwrap inner label) hint
    | none =>
      if ← schema.has "allOf" then r.resolveInline resolve schema hint
      else if ← schema.has "not" then Build.fail (.unsupported label "'not' is not supported")
      else if ← schema.has "enum" then r.resolveInline resolve schema hint
      else r.resolveStated resolve schema hint label

/-- Resolution with at most `fuel` steps inside one another. -/
def resolveWithin : Nat → Node → String → Build TypeExpr
  | 0, _, _ => Build.fail .endless
  | fuel + 1, schema, hint => r.resolveStep (resolveWithin fuel) schema hint

/-- A bound on the number of steps inside one another: between two steps that record a reference or
an inline schema, each step goes to a smaller node. -/
def stepBound : Nat :=
  (3 * r.doc.size + 3) * (r.doc.size + 3)

/-- The type of a schema. -/
def resolve (schema : Node) (hint : String) : Build TypeExpr :=
  r.resolveWithin r.stepBound schema hint

end Resolver

end ServiceContract
