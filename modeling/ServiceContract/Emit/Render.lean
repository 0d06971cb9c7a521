import ServiceContract.Contract.Options
import ServiceContract.Emit.Kotlin
import ServiceContract.Emit.Python

/-!
# The text of a contract

## Main definitions

* `Contract.render`: the text of a contract in the target of the options.
-/

namespace ServiceContract

/-- The text of a contract in the target of the options. -/
def Contract.render (c : Contract) (options : Options) : Except Fault String :=
  match options.target with
  | .python => Python.render c
  | .kotlin =>
    if Kotlin.isWritable c then .ok (Kotlin.render c options.packageName) else .error .malformed

end ServiceContract
