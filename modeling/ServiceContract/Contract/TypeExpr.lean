import ServiceContract.Value

/-!
# Types and declarations

A type of a contract is a built-in type of the target language, a declared type, a list, a map with
texts as keys, no value at all, or the handle that a response is written to. What is declared are
records with fields and enumerations with members.

## Main definitions

* `TypeExpr`: the types.
* `TypeExpr.names`: the declared types that a type mentions.
* `Field`, `Declaration`.
* `Declaration.mentioned`: the declared types that a declaration mentions.
-/

namespace ServiceContract

/-- The types of a contract. -/
inductive TypeExpr where
  /-- A built-in type of the target language. -/
  | primitive (name : String)
  /-- A declared type. -/
  | declared (name : String)
  | list (item : TypeExpr)
  /-- A map with texts as keys. -/
  | map (value : TypeExpr)
  /-- The absence of a value. -/
  | noValue
  /-- The handle that a response is written to. -/
  | responseChannel
deriving DecidableEq, Inhabited

/-- The declared types that a type mentions. -/
def TypeExpr.names : TypeExpr → List String
  | .declared name => [name]
  | .list item => item.names
  | .map value => value.names
  | _ => []

/-- A field of a record. The wire name is the name in documents, the name is the one in code. -/
structure Field where
  name : String
  wireName : String
  type : TypeExpr
  required : Bool
  description : String
deriving DecidableEq, Inhabited

/-- A declared type. The members of an enumeration are the names of its constants with their
values. -/
inductive Declaration where
  | record (name : String) (fields : List Field) (description : String)
  | enumeration (name : String) (valueType : TypeExpr) (members : List (String × Value))
      (description : String)
deriving Inhabited

namespace Declaration

/-- The name of the declared type. -/
def name : Declaration → String
  | .record name _ _ => name
  | .enumeration name _ _ _ => name

/-- The fields of a record; an enumeration has none. -/
def fields : Declaration → List Field
  | .record _ fields _ => fields
  | .enumeration _ _ _ _ => []

/-- The description of the declared type. -/
def description : Declaration → String
  | .record _ _ description => description
  | .enumeration _ _ _ description => description

/-- The declared types that the fields mention. -/
def mentioned (d : Declaration) : List String :=
  d.fields.flatMap fun f => f.type.names

end Declaration

end ServiceContract
