import ServiceContract.Document.Yaml.Token

/-!
# From text to tokens

Indentation opens and closes blocks, and a colon turns what stands before it on the line into a key.
So the lexer keeps the columns of the open blocks and, for each level of brackets, the place where a
key may have started; when the colon comes, the mark of the key is put in at that place.

## Main definitions

* `Lexer`: the state.
* `tokens`: the tokens of a text.
-/

namespace ServiceContract.Yaml

/-- A place where a key may have started. -/
structure KeyPlace where
  position : Nat
  required : Bool
  index : Nat
  line : Nat
  column : Nat
deriving Inhabited

/-- The state of the lexer: the tokens so far, the depth of brackets, the column of the innermost
block and of those around it, whether a key may start here, and where keys may have started. -/
structure Lexer where
  cursor : Cursor
  tokens : Array Token
  depth : Nat
  indent : Int
  indents : List Int
  keyAllowed : Bool
  keyPlaces : List (Nat × KeyPlace)
  done : Bool
deriving Inhabited

namespace Lexer

/-- The state at the start of a text. -/
def start (text : List Char) : Lexer :=
  { cursor := { rest := text, line := 0, column := 0, index := 0, limit := text.length }
    tokens := #[]
    depth := 0
    indent := -1
    indents := []
    keyAllowed := true
    keyPlaces := []
    done := false }

/-- The state with one token more. -/
def push (l : Lexer) (t : Token) : Lexer :=
  { l with tokens := l.tokens.push t }

/-- The state with a token put in at a position. -/
def insertAt (l : Lexer) (position : Nat) (t : Token) : Lexer :=
  { l with tokens := l.tokens.insertIdxIfInBounds position t }

/-- The state after `n` characters. -/
def forward (l : Lexer) (n : Nat) : Lexer :=
  { l with cursor := l.cursor.forward n }

/-! ### Keys -/

/-- Forgets the place of a key at this depth; a key that has to come must not be forgotten. -/
def dropKeyPlace (l : Lexer) : Except ReadFault Lexer :=
  match l.keyPlaces.lookup l.depth with
  | some place =>
    if place.required then .error .invalidYaml
    else .ok { l with keyPlaces := l.keyPlaces.filter fun p => p.1 != l.depth }
  | none => .ok l

/-- Notes that a key may start here. In a block a token at the column of the block has to be one. -/
def noteKeyPlace (l : Lexer) : Except ReadFault Lexer := do
  if l.keyAllowed then
    let required := l.depth == 0 && l.indent == (l.cursor.column : Int)
    let l ← l.dropKeyPlace
    let place : KeyPlace :=
      { position := l.tokens.size, required, index := l.cursor.index
        line := l.cursor.line, column := l.cursor.column }
    return { l with keyPlaces := (l.depth, place) :: l.keyPlaces }
  else return l

/-- Forgets the places that are too far back: a key stands on one line and has at most 1024
characters. -/
def dropStale (l : Lexer) : Except ReadFault Lexer :=
  let isStale (p : Nat × KeyPlace) : Bool :=
    p.2.line != l.cursor.line || decide (l.cursor.index - p.2.index > 1024)
  if l.keyPlaces.any fun p => isStale p && p.2.required then .error .invalidYaml
  else .ok { l with keyPlaces := l.keyPlaces.filter fun p => !isStale p }

/-! ### Blocks -/

/-- Closes the blocks, innermost first, that stand to the right of a column. -/
def unwindTo (column : Int) : List Int → Lexer → Lexer
  | [], l => l
  | outer :: outers, l =>
    if l.indent > column then
      unwindTo column outers { l.push .blockEnd with indent := outer, indents := outers }
    else l

/-- Closes the blocks to the right of a column; inside brackets there are none. -/
def unwind (l : Lexer) (column : Int) : Lexer :=
  if l.depth = 0 then unwindTo column l.indents l else l

/-- Opens a block at a column if the innermost block stands to the left of it. -/
def openBlock? (l : Lexer) (column : Nat) : Option Lexer :=
  if l.indent < column then
    some { l with indents := l.indent :: l.indents, indent := column }
  else none

/-! ### Single tokens -/

/-- Passes spaces, comments and line ends; after a line end of a block a key may start. -/
def skipToToken : Nat → Lexer → Lexer
  | 0, l => l
  | fuel + 1, l =>
    let c := l.cursor.skipWhile (· == ' ')
    let c := if c.peek 0 = some '#' then c.skipWhile (!isBreak ·) else c
    match c.lineBreak? with
    | some (_, c) =>
      skipToToken fuel { l with cursor := c, keyAllowed := l.keyAllowed || l.depth == 0 }
    | none => { l with cursor := c }

/-- A mark that ends all blocks: a directive or the start or end of a document. -/
def closeAll (l : Lexer) : Except ReadFault Lexer := do
  let l ← (l.unwind (-1)).dropKeyPlace
  return { l with keyAllowed := false }

/-- A directive, with its line. -/
def directive (l : Lexer) : Except ReadFault Lexer := do
  let l ← l.closeAll
  let (t, c) ← readDirective l.cursor
  return { l with cursor := c }.push t

/-- The start or the end of a document. -/
def marker (l : Lexer) (t : Token) : Except ReadFault Lexer := do
  return ((← l.closeAll).forward 3).push t

/-- An opening bracket, which may start a key. -/
def openBracket (l : Lexer) (t : Token) : Except ReadFault Lexer := do
  let l ← l.noteKeyPlace
  return ({ l with depth := l.depth + 1, keyAllowed := true }.forward 1).push t

/-- A closing bracket. -/
def closeBracket (l : Lexer) (t : Token) : Except ReadFault Lexer := do
  let l ← l.dropKeyPlace
  return ({ l with depth := l.depth - 1, keyAllowed := false }.forward 1).push t

/-- A comma. -/
def comma (l : Lexer) : Except ReadFault Lexer := do
  let l ← { l with keyAllowed := true }.dropKeyPlace
  return (l.forward 1).push .flowEntry

/-- A hyphen, which opens a sequence if it stands to the right of the innermost block. -/
def hyphen (l : Lexer) : Except ReadFault Lexer := do
  let l ←
    if l.depth = 0 then
      if !l.keyAllowed then throw .invalidYaml
      else
        match l.openBlock? l.cursor.column with
        | some l => pure (l.push .blockSequenceStart)
        | none => pure l
    else pure l
  let l ← { l with keyAllowed := true }.dropKeyPlace
  return (l.forward 1).push .blockEntry

/-- A question mark, which announces a key. -/
def announcedKey (l : Lexer) : Except ReadFault Lexer := do
  let l ←
    if l.depth = 0 then
      if !l.keyAllowed then throw .invalidYaml
      else
        match l.openBlock? l.cursor.column with
        | some l => pure (l.push .blockMappingStart)
        | none => pure l
    else pure l
  let l ← { l with keyAllowed := l.depth == 0 }.dropKeyPlace
  return (l.forward 1).push .key

/-- A colon. What may have been a key at this depth is one. -/
def colon (l : Lexer) : Except ReadFault Lexer := do
  match l.keyPlaces.lookup l.depth with
  | some place =>
    let l := { l with keyPlaces := l.keyPlaces.filter fun p => p.1 != l.depth }
    let l := l.insertAt place.position .key
    let l :=
      if l.depth = 0 then
        match l.openBlock? place.column with
        | some l => l.insertAt place.position .blockMappingStart
        | none => l
      else l
    return ({ l with keyAllowed := false }.forward 1).push .value
  | none =>
    let l ←
      if l.depth = 0 then
        if !l.keyAllowed then throw .invalidYaml
        else
          match l.openBlock? l.cursor.column with
          | some l => pure (l.push .blockMappingStart)
          | none => pure l
      else pure l
    let l ← { l with keyAllowed := l.depth == 0 }.dropKeyPlace
    return (l.forward 1).push .value

/-- A token that may start a key, given what reads it. -/
def keyStart (l : Lexer) (read : Cursor → Except ReadFault (Token × Cursor)) :
    Except ReadFault Lexer := do
  let l ← l.noteKeyPlace
  let (t, c) ← read l.cursor
  return { l with keyAllowed := false, cursor := c }.push t

/-- An alias, an anchor or a quoted scalar. -/
def word (l : Lexer) (read : Cursor → Except ReadFault (String × Cursor)) (t : String → Token) :
    Except ReadFault Lexer :=
  l.keyStart fun c => do
    let (text, c) ← read c
    return (t text, c)

/-- A block scalar. A key may start behind it. -/
def block (l : Lexer) (fold : Bool) : Except ReadFault Lexer := do
  let l ← { l with keyAllowed := true }.dropKeyPlace
  let (text, c) ← readBlock fold l.indent l.cursor
  return { l with cursor := c }.push (.scalar text false)

/-- A plain scalar. A key may start behind it if it ends behind a line end. -/
def plain (l : Lexer) : Except ReadFault Lexer := do
  let l ← l.noteKeyPlace
  let (text, broken, c) := readPlain (l.depth != 0) (l.indent + 1) l.cursor
  return { l with keyAllowed := broken, cursor := c }.push (.scalar text true)

/-- Whether a plain scalar may start with a character, given the next one. -/
def startsPlain (inFlow : Bool) (c : Char) (next : Option Char) : Bool :=
  if isGap c then false
  else if c == '-' || (!inFlow && (c == '?' || c == ':')) then !endsWord next
  else
    !(isFlowMark c || ['?', ':', '#', '&', '*', '!', '|', '>', '\'', '"', '%', '@',
      Char.ofNat 0x60].contains c)

/-- The end of the text. -/
def finish (l : Lexer) : Except ReadFault Lexer := do
  let l ← (l.unwind (-1)).dropKeyPlace
  return { l with done := true }

/-- Reads the next token. -/
def next (l : Lexer) : Except ReadFault Lexer := do
  let l ← (skipToToken (l.cursor.limit + 1) l).dropStale
  let l := l.unwind l.cursor.column
  let inFlow := l.depth != 0
  match l.cursor.rest with
  | [] => l.finish
  | ch :: _ =>
    let following := l.cursor.peek 1
    if l.cursor.column = 0 ∧ ch = '%' then l.directive
    else if l.cursor.column = 0 ∧ ch = '-' ∧ l.cursor.isAtMarker then l.marker .documentStart
    else if l.cursor.column = 0 ∧ ch = '.' ∧ l.cursor.isAtMarker then l.marker .documentEnd
    else if ch = '[' then l.openBracket .flowSequenceStart
    else if ch = '\x7b' then l.openBracket .flowMappingStart
    else if ch = ']' then l.closeBracket .flowSequenceEnd
    else if ch = '\x7d' then l.closeBracket .flowMappingEnd
    else if ch = ',' then l.comma
    else if ch = '-' ∧ endsWord following then l.hyphen
    else if ch = '?' ∧ (inFlow ∨ endsWord following) then l.announcedKey
    else if ch = ':' ∧ (inFlow ∨ endsWord following) then l.colon
    else if ch = '*' then l.word readName .alias
    else if ch = '&' then l.word readName .anchor
    else if ch = '!' then l.keyStart readTag
    else if ch = '|' ∧ !inFlow then l.block false
    else if ch = '>' ∧ !inFlow then l.block true
    else if ch = '\'' then l.word (readQuoted false) (.scalar · false)
    else if ch = '"' then l.word (readQuoted true) (.scalar · false)
    else if startsPlain inFlow ch following then l.plain
    else throw .invalidYaml

/-- The number of tokens that can be used before the next one is read: those in front of the first
place where a key may still have started. -/
def settledCount (l : Lexer) : Except ReadFault Nat := do
  let l ← l.dropStale
  return l.keyPlaces.foldl (fun least p => min least p.2.position) l.tokens.size

/-- Reads tokens to the end of the text. Each token but the last takes a character. A number out of
range counts only if the tokens in front of it make sense. -/
def run : Nat → Lexer → Except ReadFault (List Token)
  | 0, _ => .error .invalidYaml
  | fuel + 1, l =>
    match l.next with
    | .error .malformed => do
      return l.tokens.toList.take (← l.settledCount) ++ [.unreadable]
    | .error fault => .error fault
    | .ok l => if l.done then .ok l.tokens.toList else run fuel l

end Lexer

/-- The tokens of a text. A byte order mark in front of it is passed over. -/
def tokens (text : List Char) : Except ReadFault (List Token) :=
  if !text.all isAllowed then .error .invalidYaml
  else
    let l := Lexer.start text
    let l := if text.head?.any fun c => c.toNat == 0xFEFF then l.forward 1 else l
    l.run (text.length + 2)

end ServiceContract.Yaml
