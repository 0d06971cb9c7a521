import ServiceContract.Document.Yaml.Lexer
import ServiceContract.Document.Yaml.Scalar

/-!
# From tokens to graphs

A YAML text writes a graph. Its vertices are scalars, sequences and mappings; they have the numbers
of the order in which they begin. An alias is the vertex of its anchor, which may be around the
alias. What is left out, such as the value behind a colon at the end of a line, is an empty plain
scalar.

A vertex has a tag: the one that the text gives, else the one that follows from its form.

## Main definitions

* `Tag`, `Vertex`, `Graph`.
* `Reading`: readers of tokens, which leave the rest of the tokens and the graph so far.
* `readPart`: the reader of a vertex with all below it.
* `readGraph`: the graph of a sequence of tokens, with the vertex of its document if it has one.
-/

namespace ServiceContract.Yaml

/-! ### Graphs -/

/-- The tags of the common schema that have values here. Those of sets, ordered maps, pairs and
bytes are unknown, as all others are. -/
inductive Tag where
  | null
  | bool
  | int
  | float
  | moment
  | text
  | seq
  | map
  | merge
  | default
  | unknown
deriving DecidableEq, Inhabited

/-- What a text writes at a vertex. -/
inductive Written where
  | text (s : String)
  | items (parts : List Nat)
  | entries (parts : List (Nat × Nat))
deriving DecidableEq, Inhabited

/-- A scalar, a sequence or a mapping with its tag. -/
structure Vertex where
  tag : Tag
  written : Written
deriving DecidableEq, Inhabited

/-- Vertices by their numbers. -/
abbrev Graph : Type := Array Vertex

namespace Graph

/-- The tag of a vertex. -/
def tag (g : Graph) (v : Nat) : Tag :=
  (g[v]?.map Vertex.tag).getD .unknown

/-- What is written at a vertex. -/
def written (g : Graph) (v : Nat) : Written :=
  (g[v]?.map Vertex.written).getD (.text "")

/-- The graph with something else written at a vertex. -/
def write (g : Graph) (v : Nat) (w : Written) : Graph :=
  g.modify v fun vertex => { vertex with written := w }

/-- The graph with another tag at a vertex. -/
def setTag (g : Graph) (v : Nat) (t : Tag) : Graph :=
  g.modify v fun vertex => { vertex with tag := t }

end Graph

/-! ### Tags -/

/-- The tag that a form of plain scalars has. -/
def Plain.tag : Plain → Tag
  | .bool => .bool
  | .float => .float
  | .int => .int
  | .merge => .merge
  | .null => .null
  | .moment => .moment
  | .default => .default
  | .text => .text

/-- The start of the tags of the common schema. -/
def commonStart : String := "tag:yaml.org,2002:"

/-- The tag with a full name. -/
def Tag.ofName (name : String) : Tag :=
  ([("null", Tag.null), ("bool", .bool), ("int", .int), ("float", .float), ("timestamp", .moment),
    ("str", .text), ("seq", .seq), ("map", .map), ("merge", .merge), ("value", .default)].find?
      fun t => commonStart ++ t.1 == name).elim .unknown Prod.snd

/-- The tag of a scalar that is read by its form although it may be quoted: a line end behind it
does not count, and an indicator that stands alone has no meaning. -/
def Tag.ofForm (text : String) : Tag :=
  let s := text.toList
  let body := Text.withoutLineEnd s
  if [['!'], ['&'], ['*']].contains body then .unknown
  else if s = ['\n'] then .text
  else (Plain.ofText (String.ofList body)).tag

/-- The tag of a scalar, given the name of the tag in the text. -/
def Tag.ofScalar (name : Option String) (text : String) (plain : Bool) : Tag :=
  match name with
  | none => if plain then (Plain.ofText text).tag else .text
  | some name => if name = "!" then .ofForm text else .ofName name

/-- The tag of a collection, given the name of the tag in the text. -/
def Tag.ofCollection (name : Option String) (common : Tag) : Tag :=
  match name with
  | none => common
  | some name => if name = "!" then common else .ofName name

/-! ### Readers -/

/-- What readers share: the tokens that are left, the graph so far, the vertices of anchors, and
what handles stand for. -/
structure Source where
  tokens : List Token
  graph : Graph
  anchors : List (String × Nat)
  handles : List (String × String)
deriving Inhabited

/-- A reader of tokens. -/
abbrev Reading : Type → Type := StateT Source (Except ReadFault)

namespace Reading

/-- The next token, if there is one. -/
def peek : Reading (Option Token) := do
  match (← get).tokens with
  | [] => return none
  | .unreadable :: _ => throw .malformed
  | t :: _ => return some t

/-- Passes the next token. -/
def skip : Reading Unit :=
  modify fun s => { s with tokens := s.tokens.drop 1 }

/-- Passes the next token if it is the given one, and tells whether it was. -/
def skipIf (t : Token) : Reading Bool := do
  if (← peek) == some t then
    skip
    return true
  else return false

/-- Whether the next token is one of the given ones. -/
def isAt (ts : List Token) : Reading Bool := do
  return (← peek).any ts.contains

/-- A new vertex. -/
def addVertex (tag : Tag) (written : Written) : Reading Nat := do
  let v := (← get).graph.size
  modify fun s => { s with graph := s.graph.push { tag, written } }
  return v

/-- The vertex of what is left out. -/
def omitted : Reading Nat :=
  addVertex .null (.text "")

/-- Writes at a vertex. -/
def write (v : Nat) (w : Written) : Reading Unit :=
  modify fun s => { s with graph := s.graph.write v w }

/-- Records the vertex of an anchor. -/
def anchorAt (anchor : Option String) (v : Nat) : Reading Unit :=
  match anchor with
  | none => pure ()
  | some a => modify fun s => { s with anchors := (a, v) :: s.anchors }

/-- The vertex of an alias. -/
def aliased (name : String) : Reading Nat := do
  match (← get).anchors.lookup name with
  | some v => return v
  | none => throw .invalidYaml

/-- The full name of a tag. -/
def fullTag (handle : Option String) (suffix : String) : Reading String := do
  match handle with
  | none => return suffix
  | some h =>
    match (← get).handles.lookup h with
    | some start => return start ++ suffix
    | none => throw .invalidYaml

/-- Reads an anchor, if one comes. -/
def readAnchor : Reading (Option String) := do
  match ← peek with
  | some (.anchor a) =>
    skip
    return some a
  | _ => return none

/-- Reads a tag, if one comes. -/
def readTagName : Reading (Option (Option String × String)) := do
  match ← peek with
  | some (.tag handle suffix) =>
    skip
    return some (handle, suffix)
  | _ => return none

/-- Reads anchor and tag in either order, each at most once. -/
def readProperties : Reading (Option String × Option String) := do
  let first ← readAnchor
  let tag ← readTagName
  let anchor ← if first.isNone && tag.isSome then readAnchor else pure first
  match tag with
  | none => return (anchor, none)
  | some (handle, suffix) => return (anchor, some (← fullTag handle suffix))

/-- An anchor is used once. -/
def checkAnchor (anchor : Option String) : Reading Unit := do
  let anchors := (← get).anchors
  if anchor.any fun a => (anchors.lookup a).isSome then throw .invalidYaml

/-! ### Parts -/

/-- A vertex for a collection: it has its number and its anchor before its parts are read. -/
def collection (anchor name : Option String) (common : Tag) (parts : Reading Written) :
    Reading Nat := do
  let v ← addVertex (.ofCollection name common) (.text "")
  anchorAt anchor v
  write v (← parts)
  return v

/-- A vertex for a scalar. -/
def scalar (anchor name : Option String) (text : String) (plain : Bool) : Reading Nat := do
  let v ← addVertex (.ofScalar name text plain) (.text text)
  anchorAt anchor v
  return v

mutual

/-- Reads a part. Blocks are read only where `block` allows it, and a sequence at the column of the
mapping around it only where `indentless` does. -/
def readPart : Nat → Bool → Bool → Reading Nat
  | 0, _, _ => throw .invalidYaml
  | fuel + 1, block, indentless => do
    match ← peek with
    | some (.alias name) =>
      skip
      aliased name
    | _ =>
      let (anchor, name) ← readProperties
      let next ← peek
      checkAnchor anchor
      let bare : Reading Nat :=
        if anchor.isNone && name.isNone then throw .invalidYaml else scalar anchor name "" true
      match next with
      | some (.scalar text plain) =>
        skip
        scalar anchor name text plain
      | some .flowSequenceStart =>
        collection anchor name .seq do
          skip
          return .items (← readFlowItems fuel true)
      | some .flowMappingStart =>
        collection anchor name .map do
          skip
          return .entries (← readFlowEntries fuel true)
      | some .blockEntry =>
        if indentless then
          collection anchor name .seq do return .items (← readIndentless fuel)
        else bare
      | some .blockSequenceStart =>
        if block then
          collection anchor name .seq do
            skip
            return .items (← readItems fuel)
        else bare
      | some .blockMappingStart =>
        if block then
          collection anchor name .map do
            skip
            return .entries (← readEntries fuel)
        else bare
      | _ => bare

/-- Reads the items of a block sequence and its end. -/
def readItems : Nat → Reading (List Nat)
  | 0 => throw .invalidYaml
  | fuel + 1 => do
    if ← skipIf .blockEntry then
      let item ←
        if ← isAt [.blockEntry, .blockEnd] then omitted else readPart fuel true false
      return item :: (← readItems fuel)
    else if ← skipIf .blockEnd then return []
    else throw .invalidYaml

/-- Reads the items of a sequence at the column of the mapping around it. -/
def readIndentless : Nat → Reading (List Nat)
  | 0 => throw .invalidYaml
  | fuel + 1 => do
    if ← skipIf .blockEntry then
      let item ←
        if ← isAt [.blockEntry, .key, .value, .blockEnd] then omitted
        else readPart fuel true false
      return item :: (← readIndentless fuel)
    else return []

/-- Reads the entries of a block mapping and its end. -/
def readEntries : Nat → Reading (List (Nat × Nat))
  | 0 => throw .invalidYaml
  | fuel + 1 => do
    if ← skipIf .key then
      let key ← readMember fuel
      let value ← if ← skipIf .value then readMember fuel else omitted
      return (key, value) :: (← readEntries fuel)
    else if ← skipIf .blockEnd then return []
    else throw .invalidYaml

/-- Reads the key or the value of a block mapping behind its mark. -/
def readMember : Nat → Reading Nat
  | 0 => throw .invalidYaml
  | fuel + 1 => do
    if ← isAt [.key, .value, .blockEnd] then omitted else readPart fuel true true

/-- Reads the items of a bracketed sequence and its bracket. An item with a colon is a mapping with
one entry. -/
def readFlowItems : Nat → Bool → Reading (List Nat)
  | 0, _ => throw .invalidYaml
  | fuel + 1, first => do
    if ← skipIf .flowSequenceEnd then return []
    else
      if !first then
        if !(← skipIf .flowEntry) then throw .invalidYaml
      if ← isAt [.key] then
        let item ← collection none none .map do
          skip
          return .entries [← readFlowPair fuel .flowSequenceEnd]
        return item :: (← readFlowItems fuel false)
      else if ← skipIf .flowSequenceEnd then return []
      else
        let item ← readPart fuel false false
        return item :: (← readFlowItems fuel false)

/-- Reads the entries of a bracketed mapping and its bracket. A part without a colon is a key with
nothing. -/
def readFlowEntries : Nat → Bool → Reading (List (Nat × Nat))
  | 0, _ => throw .invalidYaml
  | fuel + 1, first => do
    if ← skipIf .flowMappingEnd then return []
    else
      if !first then
        if !(← skipIf .flowEntry) then throw .invalidYaml
      if ← skipIf .key then
        let pair ← readFlowPair fuel .flowMappingEnd
        return pair :: (← readFlowEntries fuel false)
      else if ← skipIf .flowMappingEnd then return []
      else
        let key ← readPart fuel false false
        let _ ← peek
        let value ← omitted
        return (key, value) :: (← readFlowEntries fuel false)

/-- Reads a key and its value behind the mark of the key, inside brackets that end with `close`. -/
def readFlowPair : Nat → Token → Reading (Nat × Nat)
  | 0, _ => throw .invalidYaml
  | fuel + 1, close => do
    let key ←
      if ← isAt [.value, .flowEntry, close] then omitted else readPart fuel false false
    if ← skipIf .value then
      let value ←
        if ← isAt [.flowEntry, close] then omitted else readPart fuel false false
      return (key, value)
    else return (key, ← omitted)

end

/-! ### Documents -/

/-- What handles stand for where the text does not say it. -/
def commonHandles : List (String × String) :=
  [("!", "!"), ("!!", commonStart)]

/-- Passes directives; the version has to be 1, and neither the version nor a handle is given
twice. -/
def passDirectives : Nat → Bool → List (String × String) → Reading Unit
  | 0, _, _ => throw .invalidYaml
  | fuel + 1, versionSeen, handles => do
    match ← peek with
    | some (.version major) =>
      skip
      if versionSeen || major != 1 then throw .invalidYaml
      passDirectives fuel true handles
    | some (.tagHandle handle start) =>
      skip
      if (handles.lookup handle).isSome then throw .invalidYaml
      passDirectives fuel versionSeen (handles ++ [(handle, start)])
    | some .otherDirective =>
      skip
      passDirectives fuel versionSeen handles
    | _ => modify fun s => { s with handles := handles ++ commonHandles }

/-- Whether a document begins with marks of its own: directives or its start. -/
def startsMarked : Option Token → Bool
  | some (.version _) => true
  | some (.tagHandle _ _) => true
  | some .otherDirective => true
  | some .documentStart => true
  | _ => false

/-- Passes end marks. -/
def passEnds : Nat → Reading Unit
  | 0 => pure ()
  | fuel + 1 => do
    if ← skipIf .documentEnd then passEnds fuel

/-- The end of a text behind its only document: nothing but end marks. -/
def endOfText (fuel : Nat) : Reading Unit := do
  passEnds fuel
  if (← peek).isSome then
    passDirectives fuel false []
    throw .invalidYaml

/-- Reads a document with marks of its own. -/
def readMarked (fuel : Nat) : Reading Nat := do
  passDirectives fuel false []
  if ← skipIf .documentStart then
    let next ← peek
    if next.isNone || next == some .documentEnd || startsMarked next then omitted
    else readPart fuel true false
  else throw .invalidYaml

/-- Reads a text that has at most one document. -/
def readText (fuel : Nat) : Reading (Option Nat) := do
  let next ← peek
  if next.isNone then return none
  else
    let v ← if startsMarked next then readMarked fuel else readPart fuel true false
    endOfText fuel
    return some v

end Reading

/-- The graph of a sequence of tokens, with the vertex of its document if it has one. Of two readers
one inside the other at least one passes a token. -/
def readGraph (ts : List Token) : Except ReadFault (Option Nat × Graph) := do
  let start : Source :=
    { tokens := ts, graph := #[], anchors := [], handles := Reading.commonHandles }
  let (v, s) ← (Reading.readText (3 * ts.length + 4)).run start
  return (v, s.graph)

end ServiceContract.Yaml
