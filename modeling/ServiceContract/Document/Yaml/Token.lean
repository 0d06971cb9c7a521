import ServiceContract.Document.Json
import ServiceContract.Document.Yaml.Fault

/-!
# The tokens of a YAML text

A YAML text is a sequence of scalars, of marks that are written (`-`, `:`, brackets, …), and of
marks that follow from the indentation: the start and the end of a block. This file has the tokens,
the position in the text, and the readers for the tokens that have a text of their own: plain,
quoted and block scalars, names, tags and directives.

A tag is written by a handle and a suffix, or as a whole. A directive gives the version of the text,
or what a handle stands for; all others say nothing.

## Main definitions

* `Token`: the tokens.
* `Cursor`: a position in the text.
* `readPlain`, `readQuoted`, `readBlock`: the readers for scalars.
* `readName`, `readTag`, `readDirective`: the readers for names, tags and directives.
-/

namespace ServiceContract.Yaml

/-- The tokens of a text. -/
inductive Token where
  /-- A directive with the first number of the version. -/
  | version (major : Nat)
  /-- A directive that says what a handle stands for. -/
  | tagHandle (handle start : String)
  | otherDirective
  | documentStart
  | documentEnd
  | blockSequenceStart
  | blockMappingStart
  | blockEnd
  | flowSequenceStart
  | flowSequenceEnd
  | flowMappingStart
  | flowMappingEnd
  | blockEntry
  | flowEntry
  | key
  | value
  | alias (name : String)
  | anchor (name : String)
  | tag (handle : Option String) (suffix : String)
  | scalar (text : String) (plain : Bool)
  /-- From here on the text has a number out of range, so that no token can be read. -/
  | unreadable
deriving DecidableEq, Inhabited

/-! ### Characters -/

/-- The characters that end a line. -/
def isBreak (c : Char) : Bool :=
  c == '\n' || c == '\r' || c.toNat == 0x85 || c.toNat == 0x2028 || c.toNat == 0x2029

/-- Spaces, tabs and line ends. -/
def isGap (c : Char) : Bool :=
  c == ' ' || c == '\t' || isBreak c

/-- Whether a line or the text ends here. -/
def endsLine (c : Option Char) : Bool :=
  c.all isBreak

/-- Whether a word ends here. -/
def endsWord (c : Option Char) : Bool :=
  c.all isGap

/-- The brackets and the comma, which divide a flow collection. -/
def isFlowMark (c : Char) : Bool :=
  c == ',' || c == '[' || c == ']' || c == '\x7b' || c == '\x7d'

/-- The characters that a text may have. -/
def isAllowed (c : Char) : Bool :=
  let n := c.toNat
  n == 9 || n == 10 || n == 13 || (32 ≤ n && n ≤ 126) || n == 0x85 || (0xA0 ≤ n && n ≤ 0xD7FF) ||
    (0xE000 ≤ n && n ≤ 0xFFFD) || 0x10000 ≤ n

/-! ### Positions -/

/-- A position: what comes after it, and where it is. No text after it is longer than the limit. -/
structure Cursor where
  rest : List Char
  line : Nat
  column : Nat
  index : Nat
  limit : Nat
deriving Inhabited

namespace Cursor

/-- The character at a distance. -/
def peek (c : Cursor) (distance : Nat) : Option Char :=
  c.rest[distance]?

/-- The position after `n` characters. -/
def forward : Nat → Cursor → Cursor
  | 0, c => c
  | n + 1, c =>
    match c.rest with
    | [] => c
    | ch :: rest =>
      forward n
        (if isBreak ch then
          { c with rest, line := c.line + 1, column := 0, index := c.index + 1 }
        else
          { c with
            rest, index := c.index + 1
            column := if ch.toNat = 0xFEFF then c.column else c.column + 1 })

/-- The characters up to the first one that fails the test, and the position there. -/
def takeWhile (c : Cursor) (p : Char → Bool) : List Char × Cursor :=
  let taken := c.rest.takeWhile p
  (taken, c.forward taken.length)

/-- The position at the first character that fails the test. -/
def skipWhile (c : Cursor) (p : Char → Bool) : Cursor :=
  (c.takeWhile p).2

/-- The line end at a position, as it is kept in a text, and the position after it. -/
def lineBreak? (c : Cursor) : Option (Char × Cursor) :=
  match c.rest with
  | ch :: _ =>
    if isBreak ch then
      some (if ch.toNat = 0x2028 ∨ ch.toNat = 0x2029 then ch else '\n', c.forward 1)
    else none
  | [] => none

/-- Whether a mark that starts or ends a document stands at a position. -/
def isAtMarker (c : Cursor) : Bool :=
  (c.rest.take 3 == ['-', '-', '-'] || c.rest.take 3 == ['.', '.', '.']) && endsWord (c.peek 3)

end Cursor

/-- What a line end becomes in the middle of a text: a space, unless empty lines follow. -/
def folded (lineEnd : Char) (breaks : List Char) : List Char :=
  (if lineEnd ≠ '\n' then [lineEnd] else if breaks.isEmpty then [' '] else []) ++ breaks

/-! ### Plain scalars -/

/-- The longest part of a plain scalar without a gap. -/
def plainRun (inFlow : Bool) : List Char → List Char
  | [] => []
  | c :: cs =>
    if isGap c || (c == ':' && (endsWord cs.head? || (inFlow && cs.head?.any isFlowMark)))
        || (inFlow && (isFlowMark c || c == '?')) then []
    else c :: plainRun inFlow cs

/-- The spaces and line ends of an indented continuation: the line ends and the position after them,
or nothing if a document marker comes. -/
def plainBreaks : Nat → List Char → Cursor → Option (List Char) × Cursor
  | 0, breaks, c => (some breaks, c)
  | fuel + 1, breaks, c =>
    match c.lineBreak? with
    | some (b, c) => if c.isAtMarker then (none, c) else plainBreaks fuel (breaks ++ [b]) c
    | none =>
      if c.peek 0 = some ' ' then plainBreaks fuel breaks (c.forward 1) else (some breaks, c)

/-- The gap after a part of a plain scalar: what it becomes in the text, whether it has a line end,
and the position after it. -/
def plainGap (c : Cursor) : List Char × Bool × Cursor :=
  let (spaces, c) := c.takeWhile (· == ' ')
  match c.lineBreak? with
  | none => (spaces, false, c)
  | some (b, c) =>
    if c.isAtMarker then ([], true, c)
    else
      match plainBreaks (c.limit + 1) [] c with
      | (none, c) => ([], true, c)
      | (some breaks, c) => (folded b breaks, true, c)

/-- The parts of a plain scalar from a position on, with `gap` in front of them. -/
def plainParts (inFlow : Bool) (indent : Int) :
    Nat → List Char → Bool → Cursor → List Char × Bool × Cursor
  | 0, _, broken, c => ([], broken, c)
  | fuel + 1, gap, broken, c =>
    if c.peek 0 = some '#' then ([], broken, c)
    else
      match plainRun inFlow c.rest with
      | [] => ([], broken, c)
      | run =>
        let (nextGap, broken, c) := plainGap (c.forward run.length)
        if nextGap.isEmpty || c.peek 0 == some '#' ||
          (!inFlow && decide ((c.column : Int) < indent))
        then (gap ++ run, broken, c)
        else
          let (more, broken, c) := plainParts inFlow indent fuel nextGap broken c
          (gap ++ run ++ more, broken, c)

/-- Reads a plain scalar: its text, whether it ends behind a line end, and the position after it. -/
def readPlain (inFlow : Bool) (indent : Int) (c : Cursor) : String × Bool × Cursor :=
  let (text, broken, c) := plainParts inFlow indent (c.limit + 1) [] false c
  (String.ofList text, broken, c)

/-! ### Quoted scalars -/

/-- The character that a letter behind a backslash stands for. -/
def escape? : Char → Option Nat
  | '0' => some 0
  | 'a' => some 7
  | 'b' => some 8
  | 't' => some 9
  | '\t' => some 9
  | 'n' => some 10
  | 'v' => some 11
  | 'f' => some 12
  | 'r' => some 13
  | 'e' => some 27
  | ' ' => some 32
  | '"' => some 34
  | '\\' => some 92
  | '/' => some 47
  | 'N' => some 0x85
  | '_' => some 0xA0
  | 'L' => some 0x2028
  | 'P' => some 0x2029
  | _ => none

/-- The number of hexadecimal digits that follow a letter behind a backslash. -/
def escapeDigits? : Char → Option Nat
  | 'x' => some 2
  | 'u' => some 4
  | 'U' => some 8
  | _ => none

/-- The empty lines after a line end inside a quoted scalar. -/
def quotedBreaks : Nat → List Char → Cursor → Except ReadFault (List Char × Cursor)
  | 0, _, _ => .error .invalidYaml
  | fuel + 1, breaks, c =>
    if c.isAtMarker then .error .invalidYaml
    else
      let c := c.skipWhile fun ch => ch == ' ' || ch == '\t'
      match c.lineBreak? with
      | some (b, c) => quotedBreaks fuel (breaks ++ [b]) c
      | none => .ok (breaks, c)

/-- The characters of a quoted scalar up to its closing quote, behind the characters `text`, which
are kept in reverse. -/
def quotedParts (double : Bool) : Nat → List Char → Cursor → Except ReadFault (List Char × Cursor)
  | 0, _, _ => .error .invalidYaml
  | fuel + 1, text, c =>
    match c.rest with
    | [] => .error .invalidYaml
    | '\'' :: rest =>
      if double then quotedParts double fuel ('\'' :: text) (c.forward 1)
      else if rest.head? = some '\'' then quotedParts double fuel ('\'' :: text) (c.forward 2)
      else .ok (text, c.forward 1)
    | '"' :: _ =>
      if double then .ok (text, c.forward 1)
      else quotedParts double fuel ('"' :: text) (c.forward 1)
    | '\\' :: rest =>
      if !double then quotedParts double fuel ('\\' :: text) (c.forward 1)
      else
        match rest with
        | [] => .error .invalidYaml
        | e :: rest =>
          match escape? e, escapeDigits? e with
          | some n, _ => quotedParts double fuel (Char.ofNat n :: text) (c.forward 2)
          | none, some count =>
            let digits := rest.take count
            match Json.hexNumber? digits with
            | some n =>
              if digits.length < count then .error .invalidYaml
              else if n > 0x10FFFF then .error .malformed
              else
                quotedParts double fuel ((Text.ofCodePoint n).reverse ++ text)
                  (c.forward (2 + count))
            | none => .error .invalidYaml
          | none, none =>
            match (c.forward 1).lineBreak? with
            | some (_, c) => do
              let (breaks, c) ← quotedBreaks (c.limit + 1) [] c
              quotedParts double fuel (breaks.reverse ++ text) c
            | none => .error .invalidYaml
    | ch :: _ =>
      if isGap ch then
        let (spaces, c) := c.takeWhile fun ch => ch == ' ' || ch == '\t'
        match c.lineBreak? with
        | some (b, c) => do
          let (breaks, c) ← quotedBreaks (c.limit + 1) [] c
          quotedParts double fuel ((folded b breaks).reverse ++ text) c
        | none =>
          if c.rest.isEmpty then .error .invalidYaml
          else quotedParts double fuel (spaces.reverse ++ text) c
      else quotedParts double fuel (ch :: text) (c.forward 1)

/-- Reads a quoted scalar from its opening quote on. -/
def readQuoted (double : Bool) (c : Cursor) : Except ReadFault (String × Cursor) := do
  let (text, c) ← quotedParts double (c.limit + 1) [] (c.forward 1)
  return (String.ofList text.reverse, c)

/-! ### Block scalars -/

/-- What happens to the line ends at the end of a block scalar. -/
inductive Chomping where
  | strip
  | clip
  | keep
deriving DecidableEq

/-- The chomping that a mark asks for. -/
def chomping? : Option Char → Option Chomping
  | some '+' => some .keep
  | some '-' => some .strip
  | _ => none

/-- The indentation that a digit asks for; zero is not allowed. -/
def increment? (c : Option Char) : Except ReadFault (Option Nat) :=
  match c with
  | some ch =>
    if ch.isDigit then
      if ch = '0' then .error .invalidYaml else .ok (some (ch.toNat - 48))
    else .ok none
  | none => .ok none

/-- Reads the marks behind the sign of a block scalar, in either order. -/
def blockMarks (c : Cursor) : Except ReadFault (Chomping × Option Nat × Cursor) := do
  match chomping? (c.peek 0) with
  | some chomping =>
    let c := c.forward 1
    match ← increment? (c.peek 0) with
    | some n => return (chomping, some n, c.forward 1)
    | none => return (chomping, none, c)
  | none =>
    match ← increment? (c.peek 0) with
    | none => return (.clip, none, c)
    | some n =>
      let c := c.forward 1
      match chomping? (c.peek 0) with
      | some chomping => return (chomping, some n, c.forward 1)
      | none => return (.clip, some n, c)

/-- The rest of the line of the sign: blanks and a comment. -/
def restOfLine (c : Cursor) : Except ReadFault Cursor :=
  let c := c.skipWhile (· == ' ')
  let c := if c.peek 0 = some '#' then c.skipWhile (!isBreak ·) else c
  match c.lineBreak? with
  | some (_, c) => .ok c
  | none => if c.rest.isEmpty then .ok c else .error .invalidYaml

/-- The empty lines in front of a block scalar, with the greatest number of spaces met. -/
def leadingLines : Nat → List Char → Nat → Cursor → List Char × Nat × Cursor
  | 0, breaks, indent, c => (breaks, indent, c)
  | fuel + 1, breaks, indent, c =>
    match c.lineBreak? with
    | some (b, c) => leadingLines fuel (breaks ++ [b]) indent c
    | none =>
      if c.peek 0 = some ' ' then
        let c := c.forward 1
        leadingLines fuel breaks (max indent c.column) c
      else (breaks, indent, c)

/-- The position after at most `indent` columns of spaces. -/
def skipIndent (indent : Nat) (c : Cursor) : Cursor :=
  c.forward ((c.rest.take (indent - c.column)).takeWhile (· == ' ')).length

/-- The empty lines inside a block scalar. -/
def emptyLines (indent : Nat) : Nat → List Char → Cursor → List Char × Cursor
  | 0, breaks, c => (breaks, c)
  | fuel + 1, breaks, c =>
    let c := skipIndent indent c
    match c.lineBreak? with
    | some (b, c) => emptyLines indent fuel (breaks ++ [b]) c
    | none => (breaks, c)

/-- The lines of a block scalar. The answer has the text up to the last line, the line end of the
last line, and the empty lines after it. -/
def blockLines (fold : Bool) (indent : Nat) :
    Nat → List Char → List Char → List Char → Cursor → List Char × List Char × List Char × Cursor
  | 0, text, lineEnd, breaks, c => (text, lineEnd, breaks, c)
  | fuel + 1, text, lineEnd, breaks, c =>
    if c.column ≠ indent ∨ c.rest.isEmpty then (text, lineEnd, breaks, c)
    else
      let isPlainLine := !(c.peek 0).any fun ch => ch == ' ' || ch == '\t'
      let (line, c) := c.takeWhile (!isBreak ·)
      let text := text ++ breaks ++ line
      let (lineEnd, c) : List Char × Cursor :=
        match c.lineBreak? with
        | some (b, c) => ([b], c)
        | none => ([], c)
      let (breaks, c) := emptyLines indent (c.limit + 1) [] c
      if c.column ≠ indent ∨ c.rest.isEmpty then (text, lineEnd, breaks, c)
      else
        let joined :=
          if fold && lineEnd == ['\n'] && isPlainLine &&
              !(c.peek 0).any fun ch => ch == ' ' || ch == '\t' then
            if breaks.isEmpty then [' '] else []
          else lineEnd
        blockLines fold indent fuel (text ++ joined) [] breaks c

/-- Reads a block scalar from its sign on; `parent` is the indentation around it. -/
def readBlock (fold : Bool) (parent : Int) (c : Cursor) : Except ReadFault (String × Cursor) := do
  let (chomping, increment, c) ← blockMarks (c.forward 1)
  if !((c.peek 0).all fun ch => ch == ' ' || isBreak ch) then throw .invalidYaml
  let c ← restOfLine c
  let least := (max (parent + 1) 1).toNat
  let (breaks, indent, c) : List Char × Nat × Cursor :=
    match increment with
    | none =>
      let (breaks, found, c) := leadingLines (c.limit + 1) [] 0 c
      (breaks, max least found, c)
    | some n =>
      let indent := least + n - 1
      let (breaks, c) := emptyLines indent (c.limit + 1) [] c
      (breaks, indent, c)
  let (text, lineEnd, breaks, c) := blockLines fold indent (c.limit + 1) [] [] breaks c
  let ending :=
    match chomping with
    | .strip => []
    | .clip => lineEnd
    | .keep => lineEnd ++ breaks
  return (String.ofList (text ++ ending), c)

/-! ### Names -/

/-- The characters of names. -/
def isNameChar (ch : Char) : Bool :=
  ch.isAlphanum || ch == '-' || ch == '_'

/-- Reads the name of an anchor or an alias behind its sign. -/
def readName (c : Cursor) : Except ReadFault (String × Cursor) :=
  let (name, c) := (c.forward 1).takeWhile isNameChar
  if name.isEmpty then .error .invalidYaml
  else if (c.peek 0).all fun ch =>
      isGap ch || ['?', ':', ',', ']', '\x7d', '%', '@', Char.ofNat 0x60].contains ch then
    .ok (String.ofList name, c)
  else .error .invalidYaml

/-! ### Tags -/

/-- The characters of tags. -/
def isTagChar (ch : Char) : Bool :=
  ch.isAlphanum || "-;/?:@&=+$,_.!~*'()[]%".toList.contains ch

/-- Whether a tag or a directive may end here: at a space or the end of the line. -/
def endsTag (ch : Option Char) : Bool :=
  ch.all fun ch => ch == ' ' || isBreak ch

/-- Reads bytes, each written as a percent sign and two hexadecimal digits. -/
def readBytes : Nat → Cursor → Except ReadFault (List UInt8 × Cursor)
  | 0, c => .ok ([], c)
  | fuel + 1, c =>
    match c.rest with
    | '%' :: a :: b :: _ =>
      match Json.hexNumber? [a, b] with
      | some n => do
        let (bytes, c) ← readBytes fuel (c.forward 3)
        return (n.toUInt8 :: bytes, c)
      | none => .error .invalidYaml
    | '%' :: _ => .error .invalidYaml
    | _ => .ok ([], c)

/-- The characters of a tag from a position on, behind the characters `text`, which are kept in
reverse. -/
def tagChars : Nat → List Char → Cursor → Except ReadFault (List Char × Cursor)
  | 0, text, c => .ok (text, c)
  | fuel + 1, text, c =>
    match c.rest with
    | [] => .ok (text, c)
    | ch :: _ =>
      if ch = '%' then do
        let (bytes, c) ← readBytes (c.limit + 1) c
        match String.fromUTF8? (ByteArray.mk bytes.toArray) with
        | some s => tagChars fuel (s.toList.reverse ++ text) c
        | none => throw .invalidYaml
      else if isTagChar ch then tagChars fuel (ch :: text) (c.forward 1)
      else .ok (text, c)

/-- Reads a tag or a part of it, which is not empty. -/
def readTagText (c : Cursor) : Except ReadFault (String × Cursor) := do
  let (text, c) ← tagChars (c.limit + 1) [] c
  if text.isEmpty then throw .invalidYaml
  return (String.ofList text.reverse, c)

/-- Reads a handle: an exclamation mark by itself, or a name between two of them. -/
def readHandle (c : Cursor) : Except ReadFault (String × Cursor) :=
  if c.peek 0 != some '!' then .error .invalidYaml
  else if c.peek 1 = some ' ' then .ok ("!", c.forward 1)
  else
    let (name, c) := (c.forward 1).takeWhile isNameChar
    if c.peek 0 = some '!' then .ok ("!" ++ String.ofList name ++ "!", c.forward 1)
    else .error .invalidYaml

/-- Reads a tag from its exclamation mark on. -/
def readTag (c : Cursor) : Except ReadFault (Token × Cursor) := do
  let (token, c) ←
    if c.peek 1 = some '<' then do
      let (suffix, c) ← readTagText (c.forward 2)
      if c.peek 0 != some '>' then throw .invalidYaml
      pure (Token.tag none suffix, c.forward 1)
    else if endsWord (c.peek 1) then pure (Token.tag none "!", c.forward 1)
    else do
      let hasHandle := ((c.forward 1).rest.takeWhile fun ch => !endsTag (some ch)).contains '!'
      let (handle, c) ← if hasHandle then readHandle c else pure ("!", c.forward 1)
      let (suffix, c) ← readTagText c
      pure (Token.tag (some handle) suffix, c)
  if endsTag (c.peek 0) then return (token, c) else throw .invalidYaml

/-! ### Directives -/

/-- Reads a number of the version. -/
def readVersionNumber (c : Cursor) : Except ReadFault (Nat × Cursor) :=
  let (digits, c) := c.takeWhile Char.isDigit
  if digits.isEmpty then .error .invalidYaml
  else if digits.length > maxDigits then .error .malformed
  else .ok (Json.digitsValue digits, c)

/-- Reads a directive from its percent sign on, up to the end of its line. -/
def readDirective (c : Cursor) : Except ReadFault (Token × Cursor) := do
  let (name, c) := (c.forward 1).takeWhile isNameChar
  if name.isEmpty || !endsTag (c.peek 0) then throw .invalidYaml
  let (token, c) ←
    if name = "YAML".toList then do
      let (major, c) ← readVersionNumber (c.skipWhile (· == ' '))
      if c.peek 0 != some '.' then throw .invalidYaml
      let (_, c) ← readVersionNumber (c.forward 1)
      if !endsTag (c.peek 0) then throw .invalidYaml
      pure (Token.version major, c)
    else if name = "TAG".toList then do
      let (handle, c) ← readHandle (c.skipWhile (· == ' '))
      if c.peek 0 != some ' ' then throw .invalidYaml
      let (start, c) ← readTagText (c.skipWhile (· == ' '))
      if !endsTag (c.peek 0) then throw .invalidYaml
      pure (Token.tagHandle handle start, c)
    else pure (Token.otherDirective, c.skipWhile (!isBreak ·))
  return (token, ← restOfLine c)

end ServiceContract.Yaml
