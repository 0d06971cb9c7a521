import ServiceContract.Fault

/-!
# Faults of YAML texts

A text is read as YAML without a document around it yet, so what can go wrong has no place in one:
no fault of a text is a reported one.

## Main definitions

* `ReadFault`: what keeps a text from being read as YAML.
* `ReadFault.toFault`: the fault that it is.
-/

namespace ServiceContract.Yaml

/-- What keeps a text from being read as YAML. -/
inductive ReadFault where
  /-- The text is no YAML. -/
  | invalidYaml
  /-- A scalar does not have the form of the values that it is to stand for. -/
  | malformed
  /-- Mappings merge each other without end. -/
  | endless
deriving DecidableEq, Inhabited

/-- The fault of a text that cannot be read as YAML. -/
def ReadFault.toFault : ReadFault → Fault
  | .invalidYaml => .invalidYaml
  | .malformed => .malformed
  | .endless => .endless

end ServiceContract.Yaml
