import ServiceContract.Fault
import ServiceContract.Text.Blank
import ServiceContract.Text.Replace

/-!
# Descriptions on one line

A description is written into the documentation of a contract on one line, in such a form that it
ends neither a text in three double quotes nor a block comment.

## Main definitions

* `docLine`: the line for a description.
-/

namespace ServiceContract

/-- The line for a description: single spaces for runs of blanks, backslashes doubled, three double
quotes as single ones, and a space inside the end mark of a comment. -/
def docChars (s : List Char) : List Char :=
  let line := Text.trimmed (Text.singleSpaced s)
  let line := Text.replaceAll ['\\'] ['\\', '\\'] line
  let line := Text.replaceAll ['"', '"', '"'] ['\'', '\'', '\''] line
  Text.replaceAll ['*', '/'] ['*', ' ', '/'] line

/-- The line for a description. -/
def docLine (description : String) : String :=
  String.ofList (docChars description.toList)

/-- The line for a scalar, which has to be a text unless it counts as absent. -/
def docLineOf : Scalar → Except Fault String
  | .text s => .ok (docLine s)
  | s => if s.isTruthy then .error .malformed else .ok ""

end ServiceContract
