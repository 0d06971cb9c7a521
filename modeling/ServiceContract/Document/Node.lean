import ServiceContract.Fault
import ServiceContract.Text.Blank

/-!
# Nodes of a document

A document is made of nodes. A node is more than its value: two nodes with equal values at different
places are different, and a node that is used at several places of the document is one node. So each
node carries its *address*, which tells it apart from all others, and a node used twice has one
address.

A node may stand inside itself. Where it would begin again there is a *link* instead, which carries
the nodes that are met again (its *rings*) and is opened when it is read. So nodes are finite trees,
and still every reader sees an endless one.

A document is read without checking it first. Reading a node as something that it is not gives the
fault `Fault.malformed`: a map has keys and entries, maps and lists and texts have items, and these
three can be asked whether they have a given text as key, item or part.

## Main definitions

* `Step`, `Address`, `Node`.
* `Node.opened`: the node that a link stands for.
* `Node.ofValue`, `Node.toValue`: the nodes of a value that shares no part, and the value of a node.
* `Node.get?`, `Node.get`, `Node.has`, `Node.items`, `Node.entries`, `Node.asText`: the ways to read
  a node.
* `Node.orEmpty`, `Node.itemsIfAny`, `Node.entriesIfAny`: reading a node that may count as absent.
* `Node.descend?`: the node at the end of a path.
* `Document`: a document, given by its root.
-/

namespace ServiceContract

/-- One step from a node up to the node around it. -/
inductive Step where
  /-- The node is the value of the entry with this key. -/
  | key (k : Scalar)
  /-- The node is the item at this position. -/
  | index (i : Nat)
deriving DecidableEq, Inhabited

/-- What a node is told apart by. -/
inductive Address where
  /-- The node stands nowhere in a document. -/
  | nowhere
  /-- The node stands at the end of this way, read from the node up to the root. -/
  | path (steps : List Step)
  /-- The node has this number in its document. -/
  | number (n : Nat)
  /-- The node is a key, read as a value; equal keys are one node. -/
  | label (k : Scalar)
  /-- The node is a key of the map with this number, read as a value. -/
  | labelOf (n : Nat) (k : Scalar)
deriving DecidableEq, Inhabited

/-- The address of a key of a map, given the address of the map. -/
def Address.ofKey (k : Scalar) : Address → Address
  | .number n => .labelOf n k
  | _ => .label k

/-- A part of a document. -/
inductive Node where
  | leaf (address : Address) (value : Scalar)
  | list (address : Address) (items : List Node)
  | map (address : Address) (entries : List (Scalar × Node))
  /-- The list or map with this address, around this place, stands here again. -/
  | link (address : Address) (rings : List (Address × Node))
deriving Inhabited

namespace Node

/-- The address of a node. -/
def address : Node → Address
  | .leaf a _ => a
  | .list a _ => a
  | .map a _ => a
  | .link a _ => a

/-- The node of a value that is absent. -/
def null : Node := .leaf .nowhere .null

/-- The map without entries, for a map that is absent. -/
def empty : Node := .map .nowhere []

/-! ### Links -/

mutual

/-- The node with the given rings in all its links. -/
def tie (rings : List (Address × Node)) : Node → Node
  | .leaf a s => .leaf a s
  | .list a items => .list a (tieItems rings items)
  | .map a entries => .map a (tieEntries rings entries)
  | .link a _ => .link a rings

/-- The items with the given rings in all their links. -/
def tieItems (rings : List (Address × Node)) : List Node → List Node
  | [] => []
  | n :: ns => tie rings n :: tieItems rings ns

/-- The entries with the given rings in all their links. -/
def tieEntries (rings : List (Address × Node)) : List (Scalar × Node) → List (Scalar × Node)
  | [] => []
  | (k, n) :: es => (k, tie rings n) :: tieEntries rings es

end

/-- The node that a link stands for; every other node stands for itself. -/
def opened : Node → Node
  | .link a rings => ((rings.lookup a).getD null).tie rings
  | n => n

/-! ### Nodes and values -/

mutual

/-- The nodes of a value that stands at the end of a way. -/
def ofValue (steps : List Step) : Value → Node
  | .scalar s => .leaf (.path steps) s
  | .list items => .list (.path steps) (ofItems steps 0 items)
  | .map entries => .map (.path steps) (ofEntries steps entries)
  | .again _ => .leaf (.path steps) .null

/-- The nodes of the items from position `i` on. -/
def ofItems (steps : List Step) (i : Nat) : List Value → List Node
  | [] => []
  | v :: vs => ofValue (.index i :: steps) v :: ofItems steps (i + 1) vs

/-- The nodes of the entries of a map. -/
def ofEntries (steps : List Step) : List (Scalar × Value) → List (Scalar × Node)
  | [] => []
  | (k, v) :: es => (k, ofValue (.key k :: steps) v) :: ofEntries steps es

end

/-- Whether the node is a list. -/
def isList : Node → Bool
  | .list _ _ => true
  | _ => false

mutual

/-- The value of a node, given the values of links by the addresses of the nodes around them. With
`guarded` a node that is around the place already is only mentioned; without links there is none. -/
def valueWith (guarded : Bool) (atLink : List Address → Node → Value) (around : List Address) :
    Node → Value
  | .leaf _ s => .scalar s
  | .list a items =>
    if guarded && around.contains a then .again true
    else .list (valuesWith guarded atLink (a :: around) items)
  | .map a entries =>
    if guarded && around.contains a then .again false
    else .map (valueEntriesWith guarded atLink (a :: around) entries)
  | .link a rings => atLink around (.link a rings)

/-- The values of a list of nodes. -/
def valuesWith (guarded : Bool) (atLink : List Address → Node → Value) (around : List Address) :
    List Node → List Value
  | [] => []
  | n :: ns => valueWith guarded atLink around n :: valuesWith guarded atLink around ns

/-- The entries of a map with the values of their nodes. -/
def valueEntriesWith (guarded : Bool) (atLink : List Address → Node → Value)
    (around : List Address) : List (Scalar × Node) → List (Scalar × Value)
  | [] => []
  | (k, n) :: es =>
    (k, valueWith guarded atLink around n) :: valueEntriesWith guarded atLink around es

end

/-- The value of a link, which is opened; at most `fuel` links are open inside one another. -/
def linkValue : Nat → List Address → Node → Value
  | 0, _, n => .again n.opened.isList
  | fuel + 1, around, n => valueWith true (linkValue fuel) around n.opened

/-- The number of rings that a link carries. -/
def ringCount : Node → Nat
  | .link _ rings => rings.length
  | _ => 0

/-- The value of a node. Links that are open inside one another stand for different rings. -/
def toValue (n : Node) : Value :=
  valueWith false (fun around link => linkValue link.ringCount around link) [] n.opened

mutual

/-- The number of nodes and keys of a node, itself included. -/
def size : Node → Nat
  | .leaf _ _ => 1
  | .list _ items => 1 + itemsSize items
  | .map _ entries => 1 + entriesSize entries
  | .link _ _ => 1

/-- The number of nodes and keys of a list of nodes. -/
def itemsSize : List Node → Nat
  | [] => 0
  | n :: ns => size n + itemsSize ns

/-- The number of nodes and keys of the entries of a map. -/
def entriesSize : List (Scalar × Node) → Nat
  | [] => 0
  | (_, n) :: es => 1 + size n + entriesSize es

end

/-! ### Reading a node -/

/-- Whether the node is null. -/
def isNull : Node → Bool
  | .leaf _ .null => true
  | _ => false

/-- Whether the node counts as present: null, false, zero and all that is empty do not. -/
def isTruthy : Node → Bool
  | .leaf _ s => s.isTruthy
  | .list _ items => !items.isEmpty
  | .map _ entries => !entries.isEmpty
  | .link _ _ => true

/-- Whether the node is the given text. -/
def isText (s : String) : Node → Bool
  | .leaf _ (.text t) => t == s
  | _ => false

/-- Whether the node can be a key: lists and maps cannot. -/
def isKeyLike : Node → Bool
  | .leaf _ _ => true
  | _ => false

/-- Whether `part` stands somewhere in a text. -/
def occursIn (part : List Char) : List Char → Bool
  | [] => part.isEmpty
  | c :: cs => part.isPrefixOf (c :: cs) || occursIn part cs

/-- The value of the entry with a text as key. -/
def lookup? (key : String) (entries : List (Scalar × Node)) : Option Node :=
  (entries.find? fun e => e.1 == .text key).map fun e => e.2.opened

/-- Whether the node has the text `key`: as a key, as an item, or as a part of its own text. -/
def has (key : String) : Node → Except Fault Bool
  | .map _ entries => .ok (lookup? key entries).isSome
  | .list _ items => .ok (items.any (isText key))
  | .leaf _ (.text s) => .ok (occursIn key.toList s.toList)
  | _ => .error .malformed

/-- Whether the node has one of the texts, asked in order. -/
def hasAny : List String → Node → Except Fault Bool
  | [], _ => .ok false
  | key :: keys, n => do if ← n.has key then return true else n.hasAny keys

/-- The value of the entry with the key, if there is one. -/
def get? (key : String) : Node → Except Fault (Option Node)
  | .map _ entries => .ok (lookup? key entries)
  | _ => .error .malformed

/-- The value of the entry with the key, null if there is none. -/
def get (key : String) (n : Node) : Except Fault Node := do
  return (← n.get? key).getD null

/-- The items of a list, the keys of a map, or the characters of a text. -/
def items : Node → Except Fault (List Node)
  | .list _ items => .ok (items.map opened)
  | .map a entries => .ok (entries.map fun e => .leaf (a.ofKey e.1) e.1)
  | .leaf _ (.text s) => .ok ((Text.codePoints s.toList).map fun n =>
      .leaf .nowhere (.text (String.ofList (Text.ofCodePoint n))))
  | _ => .error .malformed

/-- The entries of a map. -/
def entries : Node → Except Fault (List (Scalar × Node))
  | .map _ entries => .ok (entries.map fun e => (e.1, e.2.opened))
  | _ => .error .malformed

/-- The text that a node is. -/
def asText : Node → Except Fault String
  | .leaf _ (.text s) => .ok s
  | _ => .error .malformed

/-- The scalar that a node is. -/
def asScalar : Node → Except Fault Scalar
  | .leaf _ s => .ok s
  | _ => .error .malformed

/-! ### Reading what may be absent -/

/-- The node, or the empty map if it counts as absent. -/
def orEmpty (n : Node) : Node :=
  if n.isTruthy then n else empty

/-- The items, or none if the node counts as absent. -/
def itemsIfAny (n : Node) : Except Fault (List Node) :=
  if n.isTruthy then n.items else .ok []

/-- The entries, or none if the node counts as absent. -/
def entriesIfAny (n : Node) : Except Fault (List (Scalar × Node)) :=
  if n.isTruthy then n.entries else .ok []

/-- The text without blanks at its ends, empty if the node counts as absent. -/
def trimmedText (n : Node) : Except Fault String :=
  if n.isTruthy then do return String.ofList (Text.trimmed (← n.asText).toList) else .ok ""

/-! ### Paths -/

/-- The value of the entry with the key, or the item at the position that the key gives. -/
def child? (n : Node) (key : Scalar) : Option Node :=
  match n with
  | .map _ entries => (entries.find? fun e => e.1.isSame key).map fun e => e.2.opened
  | .list _ items =>
    match key with
    | .int i => if 0 ≤ i then items[i.toNat]?.map opened else none
    | _ => none
  | _ => none

/-- The node at the end of a path of keys and positions. -/
def descend? (n : Node) (path : List Scalar) : Option Node :=
  path.foldlM child? n

end Node

/-! ### Documents -/

/-- A document is given by its root. Its size is the number of its different nodes and keys, which
bounds the length of a way through it that does not go round in a circle. -/
structure Document where
  root : Node
  size : Nat
deriving Inhabited

/-- The document of a value, in which no two places share a node. -/
def Document.ofValue (v : Value) : Document :=
  let root := Node.ofValue [] v
  { root, size := root.size }

end ServiceContract
