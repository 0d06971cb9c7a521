import ServiceContract.Contract.Method
import ServiceContract.Emit.DocLine
import ServiceContract.Text.Digit

/-!
# Contracts in Python

Records become data classes, enumerations become `Enum` classes, and the contract becomes a protocol
or a class whose methods are not implemented. All parameters but `self` are given by keyword.

## Main definitions

* `Python.typeText`, `Python.identifier`, `Python.parameter`: the parts of a signature.
* `Python.declaration`, `Python.method`, `Python.render`: the text of a contract.
-/

namespace ServiceContract.Python

/-- The words that are no identifiers. -/
def keywords : List String :=
  ["False", "None", "True", "and", "as", "assert", "async", "await", "break", "class", "continue",
    "def", "del", "elif", "else", "except", "finally", "for", "from", "global", "if",
    "import", "in", "is", "lambda", "nonlocal", "not", "or", "pass", "raise", "return", "try",
      "while", "with",
    "yield"]

/-- The text of a type. -/
def typeText : TypeExpr → String
  | .primitive name => name
  | .declared name => name
  | .list item => "list[" ++ typeText item ++ "]"
  | .map value => "dict[str, " ++ typeText value ++ "]"
  | .noValue => "None"
  | .responseChannel => "Any"

/-- The identifier for a name: an underscore goes in front of a digit and behind a keyword, and
stands for the empty name. -/
def identifier (name : String) : String :=
  match name.toList with
  | [] => "_"
  | c :: _ =>
    let name := if Text.isDigitLike c then "_" ++ name else name
    if keywords.contains name then name ++ "_" else name

/-- A parameter of a signature, with its default. One that is not required and has no default may be
`None`. -/
def parameter (b : Binding) : String :=
  let typed := identifier b.name ++ ": " ++ typeText b.type
  if b.required then typed
  else if b.defaultValue.isNull then typed ++ " | None = None"
  else typed ++ " = " ++ b.defaultValue.literal

/-- A description in the body of a class. -/
def classDoc (description : String) : String :=
  if description.isEmpty then "" else "    \"\"\"" ++ docLine description ++ "\"\"\"\n\n"

/-- A member of an enumeration. -/
def member (m : String × Value) : String :=
  "    " ++ identifier m.1 ++ " = " ++ m.2.literal ++ "\n"

/-- A field of a data class. -/
def field (f : Field) : String :=
  (if f.description.isEmpty then "" else "    #: " ++ docLine f.description ++ "\n") ++
    "    " ++ identifier f.name ++ ": " ++ typeText f.type ++
    (if f.required then "" else " | None = None") ++ "\n"

/-- The lines of a body, which is never empty. -/
def body (lines : List String) : String :=
  if lines.isEmpty then "    pass\n" else String.join lines

/-- A declaration. The fields without a default come first. -/
def declaration : Declaration → String
  | .enumeration name _ members description =>
    "class " ++ identifier name ++ "(Enum):\n" ++ classDoc description ++
      body (members.map member)
  | .record name fields description =>
    "@dataclass\nclass " ++ identifier name ++ ":\n" ++ classDoc description ++
      body ((fields.filter Field.required ++ fields.filter fun f => !f.required).map field)

/-- A method. -/
def method (isInterface : Bool) (m : Method) : Except Fault String := do
  let path ← docLineOf m.routing.path
  return "\n    def " ++ identifier m.name ++ "(\n        self,\n" ++
    (if m.parameters.isEmpty then ""
    else "        *,\n" ++
      String.join (m.parameters.map fun p => "        " ++ parameter p ++ ",\n")) ++
    "    ) -> " ++ typeText m.returnType ++ ":\n        \"\"\"" ++
    String.ofList (Text.upper m.routing.httpMethod.toList) ++ " " ++ path ++
    (if m.summary.isEmpty then "" else ": " ++ docLine m.summary) ++ "\"\"\"\n" ++
    (if isInterface then "        ...\n" else "        raise NotImplementedError\n")

/-- The lines between the opening description and the declarations. -/
def imports : String :=
  "from __future__ import annotations\n\nimport datetime\nimport uuid\n" ++
    "from dataclasses import dataclass\nfrom enum import Enum\nfrom typing import Any, Protocol\n"

/-- The text of a contract. -/
def render (c : Contract) : Except Fault String := do
  let title := docLine (if c.title.isEmpty then c.name else c.title)
  let methods ← c.methods.mapM (method c.isInterface)
  return "\"\"\"" ++ title ++ (if c.version.isEmpty then "" else " " ++ docLine c.version) ++
    ".\n\nGenerated by apistub. Do not edit.\n\"\"\"\n\n" ++ imports ++
    String.join (c.declarations.map fun d => "\n\n" ++ declaration d) ++
    "\n\nclass " ++ identifier c.name ++ (if c.isInterface then "(Protocol)" else "") ++
    ":\n    \"\"\"" ++ title ++ " operations.\"\"\"\n" ++ String.join methods

end ServiceContract.Python
