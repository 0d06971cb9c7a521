import ServiceContract.Document.Node
import ServiceContract.Document.Yaml.Content

/-!
# Reading YAML

The document of a YAML text, as far as service descriptions make use of YAML. Loading a file
(`Document.load`) takes any other reader as well. Each vertex becomes one node, whose address is the
number of the vertex, so that an alias is the node of its anchor. A vertex that is met again below
itself becomes a link, and the nodes of all such vertices are the rings of the document.

## Main definitions

* `Unfolding`, `Unfolding.node`: the nodes of vertices.
* `Yaml.read`: the document of a text.
-/

namespace ServiceContract.Yaml

/-- The nodes finished so far, by vertices, and the vertices met below themselves. -/
structure Unfolding where
  finished : Array (Option Node)
  rings : List Nat
deriving Inhabited

namespace Unfolding

/-- The node of a vertex below the given vertices. On the way down no vertex comes twice. -/
def node (contents : Contents) : Nat → List Nat → Nat → StateM Unfolding Node
  | 0, _, _ => return .null
  | fuel + 1, above, v => do
    match ((← get).finished[v]?).join with
    | some n => return n
    | none =>
      if above.contains v then
        modify fun s => { s with rings := if s.rings.contains v then s.rings else v :: s.rings }
        return .link (.number v) []
      else
        let n ←
          match contents.get? v with
          | some (.scalar s) => pure (Node.leaf (.number v) s)
          | some (.list parts) => do
            pure (.list (.number v) (← parts.mapM (node contents fuel (v :: above))))
          | some (.map entries) => do
            pure (.map (.number v)
              (← entries.mapM fun e => do return (e.1, ← node contents fuel (v :: above) e.2)))
          | none => pure .null
        modify fun s => { s with finished := s.finished.setIfInBounds v (some n) }
        return n

/-- The rings as links carry them. -/
def ringNodes (s : Unfolding) : List (Address × Node) :=
  s.rings.map fun v => (.number v, (s.finished[v]?).join.getD .null)

end Unfolding

/-- The document whose root is a vertex. -/
def Contents.document (contents : Contents) (root : Nat) : Document :=
  let size := contents.made.size
  let start : Unfolding := { finished := Array.replicate size none, rings := [] }
  let (n, s) := (Unfolding.node contents (size + 1) [] root).run start
  { root := if s.rings.isEmpty then n else n.tie s.ringNodes, size }

/-- The document of a text. A text without content is null. -/
def read (text : String) : Except ReadFault Document := do
  match ← readGraph (← tokens text.toList) with
  | (none, _) => return .ofValue .null
  | (some root, g) => return (← readContents g root).document root

end ServiceContract.Yaml
