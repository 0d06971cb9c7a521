import ServiceContract.Contract.TypeExpr

/-!
# Methods and contracts

A contract is a list of methods, one for each operation of a document, with the types that they
mention.

## Main definitions

* `Location`, `Binding`: a parameter of a method and where it travels.
* `Routing`, `Method`.
* `Contract`, `Contract.declaration?`.
-/

namespace ServiceContract

/-- Where a parameter travels. -/
inductive Location where
  | path
  | query
  | header
  | body
  | response
deriving DecidableEq, Inhabited

/-- The name of a location. -/
def Location.name : Location → String
  | .path => "path"
  | .query => "query"
  | .header => "header"
  | .body => "body"
  | .response => "response"

/-- A parameter of a method. The default is kept as a text and as the value of the document, which
is null if there is none. -/
structure Binding where
  name : String
  wireName : String
  location : Location
  type : TypeExpr
  required : Bool
  default : Option String
  defaultValue : Value
deriving Inhabited

/-- How a request reaches a method, and the media types that travel. -/
structure Routing where
  httpMethod : String
  path : Scalar
  produces : Option Scalar
  consumes : Option Scalar
deriving DecidableEq, Inhabited

/-- A method of a contract. -/
structure Method where
  name : String
  returnType : TypeExpr
  parameters : List Binding
  routing : Routing
  summary : String
deriving Inhabited

/-- The methods of a document with the types that they mention. -/
structure Contract where
  name : String
  isInterface : Bool
  title : String
  version : String
  methods : List Method
  declarations : List Declaration
deriving Inhabited

/-- The first declaration with a name. -/
def findDeclaration? (name : String) (declarations : List Declaration) : Option Declaration :=
  declarations.find? fun d => d.name == name

/-- The first declaration with a name. -/
def Contract.declaration? (c : Contract) (name : String) : Option Declaration :=
  findDeclaration? name c.declarations

end ServiceContract
