import ServiceContract.Document.Node
import ServiceContract.Text.Digit
import ServiceContract.Text.Replace

/-!
# References

A reference names a node of the same document by a pointer: `#/` and the keys and positions from the
root down to the node, joined by slashes. In a key `~1` stands for a slash and `~0` for a tilde.

## Main definitions

* `unescapeSegment`: the key that a segment of a pointer stands for.
* `referenceName`: the last key of a reference.
* `Document.resolve`: the node that a reference names.
* `Document.follow`: the node at the end of a chain of references.
-/

namespace ServiceContract

/-- The key that a segment of a pointer stands for. -/
def unescapeSegment (segment : List Char) : List Char :=
  Text.replaceAll ['~', '0'] ['~'] (Text.replaceAll ['~', '1'] ['/'] segment)

/-- The last key of a reference: what comes behind its last slash. -/
def referenceName (ref : String) : String :=
  String.ofList (unescapeSegment ((Text.splitAt '/' ref.toList).getLast?.getD []))

/-- The position that a key stands for in a list; none if the key is no run of digits. A run with a
character that only looks like a digit, or with too many digits, cannot be read. -/
def position? (key : String) : Except Fault (Option Nat) :=
  if key.isEmpty || !key.toList.all Text.isDigitLike then .ok none
  else if key.length > maxDigits then .error .malformed
  else
    match Text.naturalOfDigits? key.toList with
    | some i => .ok (some i)
    | none => .error .malformed

/-- One step of a pointer: the entry of a map or the item of a list that a key names. -/
def Node.enter? (n : Node) (key : String) : Except Fault (Option Node) :=
  match n with
  | .map _ entries => .ok (lookup? key entries)
  | .list _ items => do return (← position? key).bind fun i => items[i]?.map opened
  | _ => .ok none

namespace Document

/-- Follows the segments of a pointer down from a node. -/
def walk (ref : String) : Node → List (List Char) → Except Fault Node
  | n, [] => .ok n
  | n, segment :: segments => do
    let key := String.ofList (unescapeSegment segment)
    match ← n.enter? key with
    | some child => walk ref child segments
    | none => throw (.unresolvable ref ("no " ++ Text.quoted key ++ " in document"))

/-- The node that a reference names. References to other documents, to nodes that do not exist and
to nodes that are no map cannot be resolved. -/
def resolve (doc : Document) (ref : String) : Except Fault Node :=
  match ref.toList with
  | '#' :: '/' :: pointer => do
    let target ← walk ref doc.root (Text.splitAt '/' pointer)
    match target with
    | .map _ _ => return target
    | _ => throw (.unresolvable ref "target is not an object")
  | _ => .error (.unresolvable ref "only local references are supported")

/-- Follows references from a node; the references in `seen` are not followed again. -/
def followFrom (doc : Document) : Nat → List String → Node → Except Fault Node
  | 0, _, _ => .error .endless
  | fuel + 1, seen, n => do
    if ← n.has "$ref" then
      let ref ← (← n.get "$ref").asText
      if seen.contains ref then return n
      else followFrom doc fuel (ref :: seen) (← doc.resolve ref)
    else return n

/-- The node at the end of the chain of references that starts at a node. A chain that comes back to
one of its references ends there. Each step uses another reference of the document. -/
def follow (doc : Document) (n : Node) : Except Fault Node :=
  doc.followFrom (doc.size + 2) [] n

end Document

end ServiceContract
