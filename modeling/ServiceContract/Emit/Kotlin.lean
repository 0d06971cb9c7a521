import ServiceContract.Contract.Method
import ServiceContract.Emit.DocLine
import ServiceContract.Text.Digit

/-!
# Contracts in Kotlin

Records become data classes, enumerations become enum classes, and the contract becomes an interface
or an abstract class whose methods carry the annotations of a web framework.

## Main definitions

* `Kotlin.typeText`, `Kotlin.identifier`, `Kotlin.quoted`, `Kotlin.literal`, `Kotlin.parameter`: the
  parts of a signature.
* `Kotlin.mapping?`: the annotation of an HTTP method.
* `Kotlin.declaration`, `Kotlin.method`, `Kotlin.render`: the text of a contract.
-/

namespace ServiceContract.Kotlin

/-- The words that are no identifiers. -/
def keywords : List String :=
  ["as", "break", "class", "continue", "do", "else", "false", "for", "fun", "if", "in", "interface",
    "is", "null", "object", "package", "return", "super", "this", "throw", "true",
    "try", "typealias", "typeof", "val", "var", "when", "while"]

/-- The text of a type. -/
def typeText : TypeExpr → String
  | .primitive name => name
  | .declared name => name
  | .list item => "List<" ++ typeText item ++ ">"
  | .map value => "Map<String, " ++ typeText value ++ ">"
  | .noValue => "Unit"
  | .responseChannel => "HttpServletResponse"

/-- The identifier for a name. A keyword, the empty name and a name that starts with a digit stand
between backquotes. -/
def identifier (name : String) : String :=
  if name.isEmpty || name.toList.head?.any Text.isDigitLike || keywords.contains name then
    "\x60" ++ name ++ "\x60"
  else name

/-! ### Literals -/

/-- A text between double quotes: backslashes, double quotes and dollar signs are escaped, one after
the other. -/
def quotedChars (s : List Char) : List Char :=
  let s := Text.replaceAll ['\\'] ['\\', '\\'] s
  let s := Text.replaceAll ['"'] ['\\', '"'] s
  let s := Text.replaceAll ['$'] ['\\', '$'] s
  '"' :: s ++ ['"']

/-- A text as a literal. -/
def quoted (s : String) : String :=
  String.ofList (quotedChars s.toList)

/-- A value as a literal: truth values and numbers as they are, all else as a text. -/
def literal : Value → String
  | .scalar (.bool b) => if b then "true" else "false"
  | .scalar (.int n) => toString n
  | .scalar (.float x) => x.text
  | v => quoted v.plain

/-! ### Parameters -/

/-- A truth value. -/
def truth (b : Bool) : String := if b then "true" else "false"

/-- The annotation of a parameter, which says where it travels. -/
def annotation (b : Binding) : String :=
  let wire := quoted b.wireName
  match b.location with
  | .path => "@PathVariable(name = " ++ wire ++ ") "
  | .query =>
    "@RequestParam(required = " ++ truth b.required ++ ", name = " ++ wire ++
      (match b.default with
        | none => ""
        | some default => ", defaultValue = " ++ quoted default) ++ ") "
  | .header => "@RequestHeader(required = " ++ truth b.required ++ ", name = " ++ wire ++ ") "
  | .body => if b.required then "@RequestBody " else "@RequestBody(required = false) "
  | .response => ""

/-- A parameter of a signature. One that is not required and has no default may be null. -/
def parameter (b : Binding) : String :=
  annotation b ++ identifier b.name ++ ": " ++ typeText b.type ++
    (if b.required || b.default.isSome then "" else "?")

/-! ### Declarations -/

/-- A description as a comment on a line of its own. -/
def comment (indent description : String) : String :=
  if description.isEmpty then "" else indent ++ "/** " ++ docLine description ++ " */\n"

/-- The members of an enumeration: a semicolon ends the last one. -/
def members : List (String × Value) → String
  | [] => ""
  | [m] => member m ++ ";\n"
  | m :: ms => member m ++ ",\n" ++ members ms
where
  /-- A member without the sign behind it. -/
  member (m : String × Value) : String :=
    "    " ++ identifier m.1 ++ "(" ++ literal m.2 ++ ")"

/-- A field of a data class. -/
def field (f : Field) : String :=
  comment "    " f.description ++ "    " ++
    (if f.name = f.wireName then "" else "@field:JsonProperty(" ++ quoted f.wireName ++ ") ") ++
    "val " ++ identifier f.name ++ ": " ++ typeText f.type ++
    (if f.required then "" else "? = null") ++ ",\n"

/-- A declaration. -/
def declaration : Declaration → String
  | .enumeration name valueType ms description =>
    comment "" description ++ "enum class " ++ identifier name ++ "(@get:JsonValue val value: " ++
      typeText valueType ++ ") \x7b\n" ++ members ms ++ "\x7d\n"
  | .record name fields description =>
    comment "" description ++
      (if fields.isEmpty then "class " ++ identifier name ++ "\n"
      else "data class " ++ identifier name ++ "(\n" ++ String.join (fields.map field) ++ ")\n")

/-! ### Methods -/

/-- The annotation of an HTTP method that has one of its own. -/
def mapping? (httpMethod : String) : Option String :=
  [("get", "GetMapping"), ("post", "PostMapping"), ("put", "PutMapping"),
    ("delete", "DeleteMapping"), ("patch", "PatchMapping")].lookup
      (String.ofList (Text.lower httpMethod.toList))

/-- The annotation of a method. -/
def routing (r : Routing) : String :=
  let place := "value = [" ++ quoted r.path.plain ++ "]" ++
    (match r.produces with
      | some mediaType =>
        if mediaType.isTruthy then ", produces = [" ++ quoted mediaType.plain ++ "]" else ""
      | none => "") ++ ")\n"
  match mapping? r.httpMethod with
  | some name => "    @" ++ name ++ "(" ++ place
  | none =>
    "    @RequestMapping(method = [RequestMethod." ++
      String.ofList (Text.upper r.httpMethod.toList) ++ "], " ++ place

/-- A method. -/
def method (isInterface : Bool) (m : Method) : String :=
  "\n" ++ comment "    " m.summary ++ routing m.routing ++
    "    " ++ (if isInterface then "" else "abstract ") ++ "fun " ++ identifier m.name ++ "(\n" ++
    String.join (m.parameters.map fun p => "        " ++ parameter p ++ ",\n") ++
    "    ): " ++ typeText m.returnType ++ "\n"

/-- The imports. -/
def imports : String :=
  "import com.fasterxml.jackson.annotation.JsonProperty\n" ++
    "import com.fasterxml.jackson.annotation.JsonValue\n" ++
    "import org.springframework.web.bind.annotation.*\n" ++
    "import javax.servlet.http.HttpServletResponse\n"

/-- The line of the package, if there is one. -/
def packageLine : Option String → String
  | none => ""
  | some name => if name.isEmpty then "" else "package " ++ name ++ "\n"

/-- Whether the paths and media types of a contract are to be written. -/
def isWritable (c : Contract) : Bool :=
  c.methods.all fun m =>
    m.routing.path.isWritable && m.routing.produces.all Scalar.isWritable

/-- The text of a contract. -/
def render (c : Contract) (packageName : Option String) : String :=
  let title := docLine (if c.title.isEmpty then c.name else c.title)
  "/*\n * " ++ title ++ (if c.version.isEmpty then "" else " " ++ docLine c.version) ++
    "\n *\n * Generated by apistub. Do not edit.\n */\n" ++ packageLine packageName ++ "\n" ++
    imports ++ String.join (c.declarations.map fun d => "\n" ++ declaration d) ++
    "\n" ++ (if c.isInterface then "interface" else "abstract class") ++ " " ++ identifier c.name ++
    " \x7b\n" ++ String.join (c.methods.map (method c.isInterface)) ++ "\x7d\n"

end ServiceContract.Kotlin
