/-!
# Fresh names

A name that is taken already is told apart by a number: `Pet`, `Pet2`, `Pet3`, … The first spelling
that is not taken is chosen. Among one spelling more than there are taken names one is free, since
the spellings of a name are all different.

## Main definitions

* `numbered`: the spellings of a name, in the order in which they are tried.
* `freshName`: the first spelling that is not taken.
-/

namespace ServiceContract

/-- The spellings of the name `base`: `base` itself, then `base` with the numbers from 2 on behind
the separator. -/
def numbered (separator base : String) : Nat → String
  | 0 => base
  | k + 1 => base ++ separator ++ toString (k + 2)

/-- The first spelling of `base` that is not in `taken`. -/
def freshName (separator : String) (taken : List String) (base : String) : String :=
  numbered separator base
    (((List.range (taken.length + 1)).find? fun k =>
      !taken.contains (numbered separator base k)).getD 0)

end ServiceContract
