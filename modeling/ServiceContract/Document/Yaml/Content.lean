import ServiceContract.Document.Yaml.Merge

/-!
# What vertices stand for

A vertex stands for a scalar, a list or a map. Scalars are read at once. A list or a map is made
empty and filled later, when its turn comes: those that are met first are filled first, so that of
several faults the one nearest to the root is found. A map is filled with the entries that it merges
and then its own; a key that is repeated keeps its first place and gets its last value.

## Main definitions

* `Content`: what a vertex stands for.
* `Contents.make`, `Contents.fill`, `Contents.fillAll`: making and filling.
* `readContents`: what the vertices of a graph stand for that are reached from a vertex.
-/

namespace ServiceContract.Yaml

/-- What a vertex stands for; parts are given by their vertices. -/
inductive Content where
  | scalar (s : Scalar)
  | list (items : List Nat)
  | map (entries : List (Scalar × Nat))
deriving Inhabited

/-- The text of a scalar. A mapping with a default value stands for the text of that value. -/
def Graph.scalarText (g : Graph) : Nat → Nat → Except ReadFault String
  | 0, _ => .error .endless
  | fuel + 1, v =>
    match g.written v with
    | .text s => .ok s
    | .items _ => .error .invalidYaml
    | .entries es =>
      match es.find? fun e => g.tag e.1 = .default with
      | some e => scalarText g fuel e.2
      | none => .error .invalidYaml

/-- The scalar that a vertex with a tag of scalars stands for. -/
def Graph.readScalar (g : Graph) (v : Nat) : Except ReadFault Scalar := do
  let text ← g.scalarText (g.size + 1) v
  match g.tag v with
  | .null => return .null
  | .bool => readBool text
  | .int => readInt text
  | .float => readFloat text
  | .text => return .text text
  | .moment =>
    match g.written v with
    | .text text => readMoment text
    | _ => throw .malformed
  | _ => throw .invalidYaml

/-- The contents made so far, by vertices, and the vertices that are still to be filled, the latest
first. -/
structure Contents where
  graph : Graph
  made : Array (Option Content)
  waiting : List Nat
deriving Inhabited

namespace Contents

/-- The content of a vertex, if it is made. -/
def get? (c : Contents) (v : Nat) : Option Content :=
  (c.made[v]?).join

/-- The contents with one more. -/
def set (c : Contents) (v : Nat) (content : Content) : Contents :=
  { c with made := c.made.setIfInBounds v (some content) }

/-- Makes the content of a vertex, unless it is made already. -/
def make (v : Nat) (c : Contents) : Except ReadFault Contents :=
  if (c.get? v).isSome then .ok c
  else
    match c.graph.tag v with
    | .seq => .ok { c.set v (.list []) with waiting := v :: c.waiting }
    | .map => .ok { c.set v (.map []) with waiting := v :: c.waiting }
    | .merge => .error .invalidYaml
    | .default => .error .invalidYaml
    | .unknown => .error .invalidYaml
    | _ => do return c.set v (.scalar (← c.graph.readScalar v))

/-- Makes the keys and values of entries, in front of which the given ones stand. A key is a
scalar. -/
def makeEntries : List (Scalar × Nat) → List (Nat × Nat) → Contents →
    Except ReadFault (List (Scalar × Nat) × Contents)
  | entries, [], c => .ok (entries, c)
  | entries, (k, v) :: rest, c => do
    let c ← make k c
    match c.get? k with
    | some (.scalar key) => makeEntries (insertEntry key v entries) rest (← make v c)
    | _ => throw .invalidYaml

/-- Fills the list or the map of a vertex. -/
def fill (v : Nat) (c : Contents) : Except ReadFault Contents :=
  match c.get? v, c.graph.written v with
  | some (.list _), .items parts => do
    let c ← parts.foldlM (fun c part => make part c) c
    return c.set v (.list parts)
  | some (.map _), .entries _ => do
    let graph ← c.graph.merge v
    let (entries, c) ← makeEntries [] ((graph.entries? v).getD []) { c with graph }
    return c.set v (.map entries)
  | _, _ => .error .invalidYaml

/-- Fills all that waits, round by round. Each round fills at least one vertex. -/
def fillAll : Nat → Contents → Except ReadFault Contents
  | 0, c => .ok c
  | fuel + 1, c =>
    if c.waiting.isEmpty then .ok c
    else do
      fillAll fuel
        (← c.waiting.reverse.foldlM (fun c v => fill v c) { c with waiting := [] })

end Contents

/-- What the vertices of a graph stand for that are reached from a vertex. -/
def readContents (g : Graph) (root : Nat) : Except ReadFault Contents := do
  let start : Contents := { graph := g, made := Array.replicate g.size none, waiting := [] }
  Contents.fillAll (g.size + 1) (← start.make root)

end ServiceContract.Yaml
