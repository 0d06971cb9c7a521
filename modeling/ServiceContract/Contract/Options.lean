import ServiceContract.Fault

/-!
# Options

## Main definitions

* `Target`, `Target.ofValue`: the languages that a contract can be written in.
* `Options`: what a caller may choose.
-/

namespace ServiceContract

/-- The languages that a contract can be written in. -/
inductive Target where
  | python
  | kotlin
deriving DecidableEq, Inhabited

namespace Target

/-- The name of a target. -/
def name : Target → String
  | .python => "python"
  | .kotlin => "kotlin"

/-- The target with a name. -/
def find? (name : String) : Option Target :=
  [Target.python, Target.kotlin].find? fun t => t.name == name

/-- The target that a value names. -/
def ofValue? : Value → Option Target
  | .scalar (.text name) => find? name
  | _ => none

/-- The target that options name. -/
def ofValue (v : Value) : Except Fault Target :=
  match ofValue? v with
  | some target => .ok target
  | none => .error (.unknownTarget v)

end Target

/-- What a caller may choose: whether methods get a handle for the response, whether the contract is
an interface or a class without content, the target, the name of the contract (else it comes from
the title), and the package. -/
structure Options where
  includeResponse : Bool
  isInterface : Bool
  target : Target
  name : Option String
  packageName : Option String
deriving DecidableEq, Inhabited

/-- The choices of a caller that chooses nothing. -/
def Options.standard : Options :=
  { includeResponse := false
    isInterface := true
    target := .python
    name := none
    packageName := none }

end ServiceContract
