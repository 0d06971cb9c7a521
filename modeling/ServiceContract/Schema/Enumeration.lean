import ServiceContract.Document.Node
import ServiceContract.FreshName
import ServiceContract.Naming

/-!
# Members of enumerations

Each value of an enumeration that is not null becomes a constant, which is named by the text of the
value. The constants of one enumeration have different names: a name that an earlier value has got
is told apart by a number behind an underscore. There are no constants if one of the values is not
to be written.

## Main definitions

* `enumMembersAfter`, `enumMembers`: the constants with their values.
-/

namespace ServiceContract

/-- The members for the values that come after the names in `seen` are taken. -/
def enumMembersAfter (seen : List String) : List Value → Except Fault (List (String × Value))
  | [] => .ok []
  | value :: values =>
    if value.isNull then enumMembersAfter seen values
    else do
      let name := freshName "_" seen (Naming.constant (← value.plainText))
      return (name, value) :: (← enumMembersAfter (name :: seen) values)

/-- The members for the values of an enumeration, in order. -/
def enumMembers (values : List Value) : Except Fault (List (String × Value)) :=
  enumMembersAfter [] values

end ServiceContract
