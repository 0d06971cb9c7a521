import ServiceContract.Document.Reference
import ServiceContract.Document.Size

/-!
# Shapes of schemas

What a schema says about the type that it stands for, read off its keywords.

* A *wrapper* is a schema that stands for one other schema: `oneOf` or `anyOf` with one alternative
  that is not null, or `allOf` whose members but one only annotate. Unwrapping takes wrappers away;
  it stops at a reference and at an `allOf` next to properties of its own.
* A schema that *declares* a type has `allOf`, `enum` or properties; every other schema is an alias
  for the type that it describes.
* An `allOf` with several members is flattened into the properties and the required names of all its
  members, which have to be objects. A property that occurs again keeps its first place and gets its
  last schema.

## Main definitions

* `Node.stripLayer`, `Document.unwrap`: wrappers taken away, one or all.
* `Node.statedType`: the type that a schema states.
* `Node.declaresType`, `Node.isObjectLike`.
* `Shape`, `Document.flatten`: the properties and required names of an `allOf`.

## Main results

* `Node.size_lt_of_stripLayer`: what is in a wrapper without links is smaller than the wrapper.
-/

namespace ServiceContract

namespace Node

/-! ### Wrappers -/

/-- The keywords that give a schema a shape of its own; all others annotate. -/
def shapeKeywords : List String :=
  ["$ref", "type", "properties", "required", "enum", "items", "additionalProperties", "allOf",
    "oneOf", "anyOf", "not"]

/-- The nodes that pass a test, asked in order. -/
def keepIf (test : Node → Except Fault Bool) : List Node → Except Fault (List Node)
  | [] => .ok []
  | n :: ns => do
    let keep ← test n
    let rest ← keepIf test ns
    return if keep then n :: rest else rest

/-- The nodes that pass a test are among the given ones. -/
theorem mem_of_keepIf {test : Node → Except Fault Bool} {ns ms : List Node} {n : Node}
    (h : keepIf test ns = .ok ms) (hn : n ∈ ms) : n ∈ ns := by
  induction ns generalizing ms with
  | nil =>
    simp only [keepIf, Except.ok.injEq] at h
    subst h
    exact hn
  | cons m ns ih =>
    simp only [keepIf, bind, Except.bind, pure, Except.pure] at h
    split at h
    · cases h
    · split at h
      · cases h
      · rename_i b _ _ rest hrest
        simp only [Except.ok.injEq] at h
        subst h
        cases b with
        | true =>
          rcases List.mem_cons.1 hn with rfl | hn
          · exact List.mem_cons_self
          · exact List.mem_cons_of_mem _ (ih hrest hn)
        | false => exact List.mem_cons_of_mem _ (ih hrest hn)

/-- Whether a schema has the type null. -/
def isNullSchema (n : Node) : Except Fault Bool := do
  return (← n.get "type").isText "null"

/-- The members of an `allOf` that have a shape. -/
def shapedMembers (schema : Node) : Except Fault (List Node) := do
  keepIf (hasAny shapeKeywords) (← (← schema.get "allOf").items)

/-- The alternatives under a keyword that are not null. -/
def alternatives (schema : Node) (keyword : String) : Except Fault (List Node) := do
  keepIf (fun n => do return !(← n.isNullSchema)) (← (← schema.get keyword).items)

/-- The only alternative under a keyword. -/
def onlyAlternative (schema : Node) (keyword label : String) : Except Fault Node := do
  match ← schema.alternatives keyword with
  | [branch] => return branch
  | branches =>
    throw (.unsupported label (keyword ++ " with " ++ toString branches.length ++ " alternatives"))

/-- What is in a wrapper, one layer down; none for a schema that is no wrapper. The label names the
schema in faults. -/
def stripLayer (schema : Node) (label : String) : Except Fault (Option Node) := do
  if ← schema.has "$ref" then return none
  else if ← schema.has "allOf" then
    if (← schema.get "properties").isTruthy then return none
    else
      match ← schema.shapedMembers with
      | [] => return some empty
      | [member] => return some member
      | _ => return none
  else if ← schema.has "oneOf" then
    return some (← schema.onlyAlternative "oneOf" label)
  else if ← schema.has "anyOf" then
    return some (← schema.onlyAlternative "anyOf" label)
  else return none

/-- The nodes of a tree that pass a test are no larger than what they are items of, which is smaller
than the map that has it. -/
theorem size_lt_of_keepIf {schema n : Node} {keyword : String} {test : Node → Except Fault Bool}
    {ns : List Node} (ht : schema.isTree = true)
    (h : (do keepIf test (← (← schema.get keyword).items) : Except Fault (List Node)) = .ok ns)
    (hn : n ∈ ns) : n.isTree = true ∧ n.size < schema.size := by
  simp only [bind, Except.bind] at h
  split at h
  · cases h
  · rename_i c hc
    split at h
    · cases h
    · rename_i items hitems
      obtain ⟨hct, hcs⟩ := size_lt_of_get ht hc hitems
      obtain ⟨hnt, hns⟩ := size_le_of_mem_items hct hitems (mem_of_keepIf h hn)
      exact ⟨hnt, Nat.lt_of_le_of_lt hns hcs⟩

theorem size_lt_of_onlyAlternative {schema inner : Node} {keyword label : String}
    (ht : schema.isTree = true) (h : schema.onlyAlternative keyword label = .ok inner) :
    inner.isTree = true ∧ inner.size < schema.size := by
  simp only [onlyAlternative, bind, Except.bind] at h
  split at h
  · cases h
  · rename_i branches hb
    split at h
    · cases h
      exact size_lt_of_keepIf ht hb List.mem_cons_self
    · cases h

/-- A schema with a keyword is larger than the empty map. -/
theorem size_lt_of_shapedMembers {schema : Node} {ns : List Node} (ht : schema.isTree = true)
    (h : schema.shapedMembers = .ok ns) : empty.size < schema.size := by
  simp only [shapedMembers, bind, Except.bind] at h
  split at h
  · cases h
  · rename_i c hc
    split at h
    · cases h
    · rename_i items hitems
      have := (size_lt_of_get ht hc hitems).2
      have := one_le_size c
      simp only [empty, size, entriesSize]
      omega

/-- What is in a wrapper without links is smaller than the wrapper, and has no links either. -/
theorem size_lt_of_stripLayer {schema inner : Node} {label : String} (ht : schema.isTree = true)
    (h : schema.stripLayer label = .ok (some inner)) :
    inner.isTree = true ∧ inner.size < schema.size := by
  simp only [stripLayer, bind, Except.bind, pure, Except.pure] at h
  repeat' split at h
  all_goals first
    | cases h; done
    | skip
  · rename_i hm
    cases h
    exact ⟨rfl, size_lt_of_shapedMembers ht hm⟩
  · rename_i hm
    cases h
    exact size_lt_of_keepIf ht hm List.mem_cons_self
  · rename_i hm
    cases h
    exact size_lt_of_onlyAlternative ht hm
  · rename_i hm
    cases h
    exact size_lt_of_onlyAlternative ht hm

/-- The schema with at most `fuel` layers of wrappers taken away, which have to be all of them. -/
def unwrapWithin (label : String) : Nat → Node → Except Fault Node
  | 0, _ => .error .endless
  | fuel + 1, schema => do
    match ← schema.stripLayer label with
    | none => return schema
    | some inner => unwrapWithin label fuel inner

/-! ### Types -/

/-- The type that a schema states, null if it states none. A list of types counts as the one type in
it that is not null. -/
def statedType (schema : Node) (label : String) : Except Fault Node := do
  let type ← schema.get "type"
  if !type.isList then return type
  else
    match (← type.items).filter fun t => !t.isText "null" with
    | [] => return null
    | [type] => return type
    | types =>
      throw (.unsupported label
        ("multiple types " ++ (← (Value.list (types.map toValue)).literalText)))

/-- Whether a schema without wrappers declares a type of its own when it is named. -/
def declaresType (schema : Node) : Except Fault Bool := do
  if ← schema.has "$ref" then return false
  else if ← schema.hasAny ["allOf", "enum"] then return true
  else return (← schema.get "properties").isTruthy

/-- Whether a schema can be a member of an `allOf` with several members. -/
def isObjectLike (schema : Node) (label : String) : Except Fault Bool := do
  if ← schema.hasAny ["enum", "items", "oneOf", "anyOf", "not"] then return false
  else
    let type ← schema.statedType label
    return type.isNull || type.isText "object"

end Node

/-! ### Flattening -/

/-- The properties of an object and the names of those that are required. -/
structure Shape where
  properties : List (Scalar × Node)
  required : List Node
deriving Inhabited

namespace Shape

/-- The shape without properties. -/
def empty : Shape := { properties := [], required := [] }

/-- The properties of both shapes, where the second one has the last word, and all required
names. -/
def merge (a b : Shape) : Shape :=
  { properties := b.properties.foldl (fun es e => insertEntry e.1 e.2 es) a.properties
    required := a.required ++ b.required }

/-- A pair as an entry: a list, a text or a map with exactly two items, of which the first can be a
key. -/
def entryOfPair (pair : Node) : Except Fault (Scalar × Node) := do
  match ← pair.items with
  | [key, value] => return (← key.asScalar, value)
  | _ => throw .malformed

/-- The properties to be merged, as a map or as a list of pairs. -/
def propertyEntries (properties : Node) : Except Fault (List (Scalar × Node)) :=
  if !properties.isTruthy then .ok []
  else
    match properties with
    | .map _ _ => properties.entries
    | _ => do (← properties.items).mapM entryOfPair

/-- The shape that a member of an `allOf` gives by itself. -/
def ofMember (schema : Node) : Except Fault Shape := do
  return { properties := ← propertyEntries (← schema.get "properties")
           required := ← (← schema.get "required").itemsIfAny }

/-- The shape of an object. -/
def ofObject (schema : Node) : Except Fault Shape := do
  let required ← (← schema.get "required").itemsIfAny
  return { properties := ← (← schema.get "properties").entriesIfAny, required }

end Shape

namespace Document

/-- The schema with all wrappers taken away. The label names the schema in faults. -/
def unwrap (doc : Document) (schema : Node) (label : String) : Except Fault Node :=
  schema.unwrapWithin label (doc.size + 2)

/-- Follows references from a member of an `allOf` until a node has none. -/
def dereference (doc : Document) : Nat → Node → Except Fault Node
  | 0, _ => .error .endless
  | fuel + 1, n => do
    if ← n.has "$ref" then dereference doc fuel (← doc.resolve (← (← n.get "$ref").asText))
    else return n

/-- The shape that one member contributes to the `allOf` of `schema`: its own, or if it has an
`allOf` and is not `schema` itself, the flattened one. -/
def memberShape (doc : Document) (flatten : Node → Except Fault Shape) (label : String)
    (schema member : Node) : Except Fault Shape := do
  let part ← doc.dereference (doc.size + 2) member
  if (← part.has "allOf") && part.address != schema.address then flatten part
  else if ← part.isObjectLike label then Shape.ofMember part
  else throw (.unsupported label "allOf member is not an object")

/-- The shapes of members merged one after the other. -/
def mergeMembers (doc : Document) (flatten : Node → Except Fault Shape) (label : String)
    (schema : Node) : Shape → List Node → Except Fault Shape
  | shape, [] => .ok shape
  | shape, member :: members => do
    let part ← doc.memberShape flatten label schema member
    mergeMembers doc flatten label schema (shape.merge part) members

/-- The shape of an `allOf`, with at most `fuel` levels of `allOf` inside one another. -/
def flattenWithin (doc : Document) (label : String) : Nat → Node → Except Fault Shape
  | 0, _ => .error .endless
  | fuel + 1, schema => do
    let members ← (← schema.get "allOf").items
    doc.mergeMembers (doc.flattenWithin label fuel) label schema .empty (members ++ [schema])

/-- The shape of a schema with an `allOf`: its members, flattened in turn, and then the schema
itself. The label names the schema in faults. -/
def flatten (doc : Document) (schema : Node) (label : String) : Except Fault Shape :=
  doc.flattenWithin label (doc.size + 2) schema

end Document

end ServiceContract
