import ServiceContract.Document.Reference

/-!
# Reading JSON

The JSON texts, with three words more for numbers: `NaN`, `Infinity` and `-Infinity`. A number
without fraction and exponent is an integer of any size, every other number is a double-precision
number. A key that is repeated in an object keeps its first place and gets its last value.

Each reader returns what it has read and the rest of the text.

## Main definitions

* `Json.readNumber`, `Json.readText`, `Json.readValue`: readers for the parts of a text.
* `Json.read`: the value of a whole text.
-/

namespace ServiceContract.Json

/-- The rest of a text after blanks, line ends and tabs. -/
def skipBlanks (s : List Char) : List Char :=
  s.dropWhile fun c => c == ' ' || c == '\t' || c == '\n' || c == '\r'

/-! ### Numbers -/

/-- The digits at the start of a text and the rest. -/
def takeDigits (s : List Char) : List Char × List Char :=
  (s.takeWhile Char.isDigit, s.dropWhile Char.isDigit)

/-- The number that decimal digits stand for. -/
def digitsValue (ds : List Char) : Nat :=
  ds.foldl (fun n d => 10 * n + (d.toNat - 48)) 0

/-- The digits of the fraction at the start of a text; a point without a digit is none. -/
def takeFraction : List Char → Option (List Char) × List Char
  | '.' :: s =>
    match takeDigits s with
    | ([], _) => (none, '.' :: s)
    | (ds, rest) => (some ds, rest)
  | s => (none, s)

/-- The exponent at the start of a text; a mark without a digit is none. -/
def takeExponent (s : List Char) : Option Int × List Char :=
  match s with
  | mark :: rest =>
    if mark = 'e' ∨ mark = 'E' then
      let (negative, body) : Bool × List Char :=
        match rest with
        | '-' :: body => (true, body)
        | '+' :: body => (false, body)
        | body => (false, body)
      match takeDigits body with
      | ([], _) => (none, s)
      | (ds, rest) =>
        (some (if negative then -(digitsValue ds : Int) else digitsValue ds), rest)
    else (none, s)
  | [] => (none, s)

/-- The integer with the given sign and digits. -/
def signed (negative : Bool) (n : Nat) : Int :=
  if negative then -(n : Int) else n

/-- Reads a number without its sign. -/
def readMagnitude (negative : Bool) (s : List Char) : Except Fault (Value × List Char) :=
  let (whole, rest) : List Char × List Char :=
    match s with
    | '0' :: rest => (['0'], rest)
    | s => takeDigits s
  if whole.isEmpty then .error .invalidJson
  else
    let (fraction, rest) := takeFraction rest
    let (exponent, rest) := takeExponent rest
    match fraction, exponent with
    | none, none =>
      if whole.length > maxDigits then .error .malformed
      else .ok (.scalar (.int (signed negative (digitsValue whole))), rest)
    | _, _ =>
      let digits := whole ++ fraction.getD []
      let power : Int := exponent.getD 0 - (fraction.getD []).length
      .ok (.scalar (.float (.ofDecimal negative (digitsValue digits) power)), rest)

/-- Reads a number. -/
def readNumber : List Char → Except Fault (Value × List Char)
  | '-' :: s => readMagnitude true s
  | s => readMagnitude false s

/-! ### Texts -/

/-- The value of a hexadecimal digit. -/
def hexValue? (c : Char) : Option Nat :=
  if c.isDigit then some (c.toNat - 48)
  else if 'a' ≤ c ∧ c ≤ 'f' then some (c.toNat - 87)
  else if 'A' ≤ c ∧ c ≤ 'F' then some (c.toNat - 55)
  else none

/-- The number that hexadecimal digits stand for. -/
def hexNumber? (ds : List Char) : Option Nat :=
  ds.foldlM (fun n d => (hexValue? d).map (16 * n + ·)) 0

/-- The character that a letter behind a backslash stands for. -/
def simpleEscape? : Char → Option Char
  | '"' => some '"'
  | '\\' => some '\\'
  | '/' => some '/'
  | 'b' => some (Char.ofNat 8)
  | 'f' => some (Char.ofNat 12)
  | 'n' => some '\n'
  | 'r' => some '\r'
  | 't' => some '\t'
  | _ => none

/-- Reads the code points and code units of a text up to its closing quote, behind the given ones;
they are kept in reverse. -/
def readUnits (units : List Nat) : List Char → Except Fault (List Nat × List Char)
  | [] => .error .invalidJson
  | '"' :: s => .ok (units, s)
  | '\\' :: 'u' :: a :: b :: c :: d :: s =>
    match hexNumber? [a, b, c, d] with
    | none => .error .invalidJson
    | some n => readUnits (n :: units) s
  | '\\' :: e :: s =>
    match simpleEscape? e with
    | none => .error .invalidJson
    | some c => readUnits (c.toNat :: units) s
  | c :: s =>
    if c.toNat < 32 ∨ c = '\\' then .error .invalidJson else readUnits (c.toNat :: units) s

/-- Reads a text behind its opening quote. -/
def readText (s : List Char) : Except Fault (String × List Char) := do
  let (units, rest) ← readUnits [] s
  return (String.ofList (Text.joinUnits [] units), rest)

/-! ### Values -/

mutual

/-- Reads a value; `fuel` bounds the depth and the number of parts. -/
def readValue : Nat → List Char → Except Fault (Value × List Char)
  | 0, _ => .error .invalidJson
  | fuel + 1, s =>
    match s with
    | '"' :: s => do
      let (t, rest) ← readText s
      return (.text t, rest)
    | '\x7b' :: s =>
      match skipBlanks s with
      | '\x7d' :: rest => .ok (.map [], rest)
      | s => do
        let (es, rest) ← readEntries fuel [] s
        return (.map es, rest)
    | '[' :: s =>
      match skipBlanks s with
      | ']' :: rest => .ok (.list [], rest)
      | s => do
        let (vs, rest) ← readItems fuel s
        return (.list vs, rest)
    | 'n' :: 'u' :: 'l' :: 'l' :: rest => .ok (.null, rest)
    | 't' :: 'r' :: 'u' :: 'e' :: rest => .ok (.scalar (.bool true), rest)
    | 'f' :: 'a' :: 'l' :: 's' :: 'e' :: rest => .ok (.scalar (.bool false), rest)
    | 'N' :: 'a' :: 'N' :: rest => .ok (.scalar (.float .nan), rest)
    | 'I' :: 'n' :: 'f' :: 'i' :: 'n' :: 'i' :: 't' :: 'y' :: rest =>
      .ok (.scalar (.float (.infinity false)), rest)
    | '-' :: 'I' :: 'n' :: 'f' :: 'i' :: 'n' :: 'i' :: 't' :: 'y' :: rest =>
      .ok (.scalar (.float (.infinity true)), rest)
    | s => readNumber s

/-- Reads the items of a list behind its bracket. -/
def readItems : Nat → List Char → Except Fault (List Value × List Char)
  | 0, _ => .error .invalidJson
  | fuel + 1, s => do
    let (v, rest) ← readValue fuel s
    match skipBlanks rest with
    | ',' :: rest => do
      let (vs, rest) ← readItems fuel (skipBlanks rest)
      return (v :: vs, rest)
    | ']' :: rest => return ([v], rest)
    | _ => throw .invalidJson

/-- Reads the entries of an object that come after the given ones. -/
def readEntries : Nat → List (Scalar × Value) → List Char →
    Except Fault (List (Scalar × Value) × List Char)
  | 0, _, _ => .error .invalidJson
  | fuel + 1, entries, s =>
    match s with
    | '"' :: s => do
      let (key, rest) ← readText s
      match skipBlanks rest with
      | ':' :: rest => do
        let (v, rest) ← readValue fuel (skipBlanks rest)
        let entries := insertEntry (.text key) v entries
        match skipBlanks rest with
        | ',' :: rest => readEntries fuel entries (skipBlanks rest)
        | '\x7d' :: rest => return (entries, rest)
        | _ => throw .invalidJson
      | _ => throw .invalidJson
    | _ => .error .invalidJson

end

/-- The value of a text that is JSON as a whole. -/
def read (text : String) : Except Fault Value := do
  let s := text.toList
  let (v, rest) ← readValue (s.length + 1) (skipBlanks s)
  if (skipBlanks rest).isEmpty then return v else throw .invalidJson

end ServiceContract.Json
