import ServiceContract.Contract.Options
import ServiceContract.Document.Node

/-!
# Built-in types

Each target has a built-in type for the primitive schema types, which a format may refine.

## Main definitions

* `PrimitiveTable`: the built-in types of a target.
* `PrimitiveTable.lookup`: the built-in type for a schema type and a format.
* `Target.primitives`: the tables.
-/

namespace ServiceContract

/-- The built-in types of a target: by schema type, by schema type and format, and the types of any
value and of any object. -/
structure PrimitiveTable where
  types : List (String × String)
  formats : List ((String × String) × String)
  anyType : String
  anyObject : String
deriving DecidableEq

namespace PrimitiveTable

/-- The built-in type for the name of a schema type. -/
def find? (table : PrimitiveTable) (type format : String) : Option String :=
  (table.formats.lookup (type, format)).or (table.types.lookup type)

/-- The built-in type for a schema type and a format. Neither may be a list or a map, where it
counts as present; a scalar other than a text has no built-in type. -/
def lookup (table : PrimitiveTable) (type format : Node) : Except Fault (Option String) :=
  if !type.isKeyLike || (format.isTruthy && !format.isKeyLike) then .error .malformed
  else
    match type, format with
    | .leaf _ (.text t), .leaf _ (.text f) => .ok (table.find? t f)
    | .leaf _ (.text t), _ => .ok (table.types.lookup t)
    | _, _ => .ok none

/-- The built-in type of texts. -/
def textType (table : PrimitiveTable) : String :=
  (table.types.lookup "string").getD ""

end PrimitiveTable

/-- The built-in types of Python. -/
def pythonPrimitives : PrimitiveTable where
  types :=
    [("string", "str"), ("integer", "int"), ("number", "float"), ("boolean", "bool")]
  formats :=
    [(("string", "binary"), "bytes"),
      (("string", "date"), "datetime.date"),
      (("string", "date-time"), "datetime.datetime"),
      (("string", "uuid"), "uuid.UUID")]
  anyType := "Any"
  anyObject := "dict[str, Any]"

/-- The built-in types of Kotlin. -/
def kotlinPrimitives : PrimitiveTable where
  types :=
    [("string", "String"), ("integer", "Int"), ("number", "Double"), ("boolean", "Boolean")]
  formats :=
    [(("integer", "int64"), "Long"),
      (("number", "float"), "Float"),
      (("string", "binary"), "ByteArray"),
      (("string", "date"), "java.time.LocalDate"),
      (("string", "date-time"), "java.time.OffsetDateTime"),
      (("string", "uuid"), "java.util.UUID")]
  anyType := "Any"
  anyObject := "Map<String, Any>"

/-- The built-in types of a target. -/
def Target.primitives : Target → PrimitiveTable
  | .python => pythonPrimitives
  | .kotlin => kotlinPrimitives

/-- The built-in types of the target that a value names. A list or a map is no name. -/
def PrimitiveTable.forTarget (v : Value) : Except Fault PrimitiveTable :=
  match Target.ofValue? v, v with
  | some target, _ => .ok target.primitives
  | none, .scalar _ => .error (.noTypesFor v)
  | none, _ => .error .malformed

end ServiceContract
