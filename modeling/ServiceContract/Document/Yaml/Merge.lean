import ServiceContract.Document.Yaml.Graph

/-!
# Merging mappings

A mapping may merge others (`<<`): the value of the merge key is a mapping or a sequence of
mappings, which merge others in turn. Merging puts the entries of the merged mappings in front of
the mapping's own entries, those of a later mapping of a sequence before those of an earlier one.
Entries are merged in place, so that a mapping that is merged twice is prepared once, and one that
merges itself, directly or not, gets what it has at that point.

## Main definitions

* `Graph.takeMerge?`: the first merge entry of a mapping.
* `Graph.merge`: the graph after the merge entries of a mapping have been carried out.
-/

namespace ServiceContract.Yaml.Graph

/-- The entries of a mapping, if the vertex is one. -/
def entries? (g : Graph) (v : Nat) : Option (List (Nat × Nat)) :=
  match g.written v with
  | .entries es => some es
  | _ => none

/-- What the first merge entry merges, and the other entries. -/
def takeMerge? (g : Graph) : List (Nat × Nat) → Option (Nat × List (Nat × Nat))
  | [] => none
  | (k, v) :: es =>
    if g.tag k = .merge then some (v, es)
    else (takeMerge? g es).map fun found => (found.1, (k, v) :: found.2)

/-- The graph in which the keys of default values are texts. -/
def settleKeys (g : Graph) : List (Nat × Nat) → Graph
  | [] => g
  | (k, _) :: es => (if g.tag k = .default then g.setTag k .text else g).settleKeys es

mutual

/-- Carries out the merge entries of a mapping, behind the entries that are merged already. Each
step inside another one has taken a merge entry from its mapping. -/
def mergeFrom : Nat → List (Nat × Nat) → Nat → Graph → Except ReadFault Graph
  | 0, _, _, _ => .error .endless
  | fuel + 1, merged, v, g =>
    match g.entries? v with
    | none => .error .invalidYaml
    | some es =>
      match g.takeMerge? es with
      | none =>
        let g := if merged.isEmpty then g else g.write v (.entries (merged ++ es))
        .ok (g.settleKeys es)
      | some (source, rest) => do
        let g := g.write v (.entries rest)
        let (more, g) ←
          match g.written source with
          | .text _ => throw .invalidYaml
          | .entries _ => mergeAll fuel [source] g
          | .items sources => mergeAll fuel sources g
        mergeFrom fuel (merged ++ more) v g

/-- Carries out the merge entries of several mappings. The answer has the entries of all of them,
those of the last one first. -/
def mergeAll : Nat → List Nat → Graph → Except ReadFault (List (Nat × Nat) × Graph)
  | 0, _, _ => .error .endless
  | _ + 1, [], g => .ok ([], g)
  | fuel + 1, v :: vs, g => do
    let g ← mergeFrom fuel [] v g
    let es := (g.entries? v).getD []
    let (more, g) ← mergeAll fuel vs g
    return (more ++ es, g)

end

/-- The number of entries and items of a graph. -/
def partCount (g : Graph) : Nat :=
  g.foldl (fun n vertex =>
    n + match vertex.written with
      | .text _ => 0
      | .items parts => parts.length
      | .entries parts => parts.length) 0

/-- The graph after the merge entries of a mapping have been carried out. -/
def merge (v : Nat) (g : Graph) : Except ReadFault Graph :=
  mergeFrom ((g.partCount + 2) * (g.partCount + 2)) [] v g

end ServiceContract.Yaml.Graph
