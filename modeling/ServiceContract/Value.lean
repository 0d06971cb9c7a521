import ServiceContract.Moment
import ServiceContract.Number.Decimal
import ServiceContract.Text.Quoted

/-!
# Values of documents

A value is a scalar, a list of values, or a map, whose entries keep the order of the document and
whose keys are scalars. Where a list or a map stands inside itself, only this is kept.

A value has two written forms. The *plain* form of a text is the text itself; the *literal* form
puts it in quotes. All other values have one form, in which the parts of lists and maps are written
in literal form. An integer with too many digits is not to be written, and neither is a value that
it is part of.

## Main definitions

* `Scalar`, `Value`.
* `Scalar.isSame`: whether two scalars are the same key of a map.
* `Value.isTruthy`: whether a value counts as present where absence is the default.
* `Value.literal`, `Value.plain`: the written forms.
* `Value.isWritable`: whether a value is to be written.
* `insertEntry`: the entries of a map after an assignment.
-/

namespace ServiceContract

/-- The values without parts. -/
inductive Scalar where
  | null
  | bool (b : Bool)
  | int (n : Int)
  | float (x : Binary64)
  | text (s : String)
  | date (d : Date)
  | moment (m : Moment)
deriving DecidableEq, Inhabited

/-- The values of a document. -/
inductive Value where
  | scalar (s : Scalar)
  | list (items : List Value)
  | map (entries : List (Scalar × Value))
  /-- A list or a map around this place stands here again. -/
  | again (isList : Bool)
deriving Inhabited

/-! ### Keys -/

namespace Scalar

/-- The integer that a number or truth value is equal to. -/
def integer? : Scalar → Option Int
  | .bool b => some (if b then 1 else 0)
  | .int n => some n
  | .float x => x.toInt?
  | _ => none

/-- The instant of a moment whose offset is known. -/
def instant? : Scalar → Option Int
  | .moment m => m.instant?
  | _ => none

/-- Whether two scalars are the same key: equal, or numbers of equal value, a truth value counting
as 0 or 1, or moments of the same instant. -/
def isSame (a b : Scalar) : Bool :=
  a == b || (a.integer?.isSome && a.integer? == b.integer?) ||
    (a.instant?.isSome && a.instant? == b.instant?)

/-- Whether a scalar counts as present: it is not null, false, zero or the empty text. -/
def isTruthy : Scalar → Bool
  | .null => false
  | .bool b => b
  | .int n => n != 0
  | .float x => !x.isZero
  | .text s => !s.isEmpty
  | .date _ => true
  | .moment _ => true

end Scalar

/-- The entries after an assignment: a key that is present keeps its place and its spelling and gets
the new value, a new key comes last. -/
def insertEntry {α : Type} (key : Scalar) (value : α) :
    List (Scalar × α) → List (Scalar × α)
  | [] => [(key, value)]
  | entry :: entries =>
    if entry.1.isSame key then (entry.1, value) :: entries
    else entry :: insertEntry key value entries

/-- Whether a value counts as present: lists and maps do when they have parts. -/
def Value.isTruthy : Value → Bool
  | .scalar s => s.isTruthy
  | .list items => !items.isEmpty
  | .map entries => !entries.isEmpty
  | .again _ => true

/-! ### Written forms -/

/-- A date as the expression that makes it. -/
def Date.literal (d : Date) : String :=
  "datetime.date(" ++ toString d.year ++ ", " ++ toString d.month ++ ", " ++ toString d.day ++ ")"

/-- An offset from universal time as the expression that makes it. -/
def Moment.offsetLiteral (o : Int) : String :=
  if o = 0 then "datetime.timezone.utc"
  else
    "datetime.timezone(datetime.timedelta(" ++
      (if o < 0 then "days=-1, seconds=" ++ toString (o + 86400) else "seconds=" ++ toString o) ++
      "))"

/-- A moment as the expression that makes it; seconds and microseconds are left out from the end
where they are zero. -/
def Moment.literal (m : Moment) : String :=
  let small :=
    if m.microsecond ≠ 0 then ", " ++ toString m.second ++ ", " ++ toString m.microsecond
    else if m.second ≠ 0 then ", " ++ toString m.second
    else ""
  "datetime.datetime(" ++ toString m.date.year ++ ", " ++ toString m.date.month ++ ", " ++
    toString m.date.day ++ ", " ++ toString m.hour ++ ", " ++ toString m.minute ++ small ++
    ((m.offset.map fun o => ", tzinfo=" ++ offsetLiteral o).getD "") ++ ")"

/-- The most digits that an integer may be written with. -/
def maxDigits : Nat := 4300

/-- Whether a scalar is to be written: an integer is if it has not too many digits. -/
def Scalar.isWritable : Scalar → Bool
  | .int n => decide (n.natAbs < Nat.pow 10 maxDigits)
  | _ => true

/-- The literal form of a scalar. -/
def Scalar.literal : Scalar → String
  | .null => "None"
  | .bool b => if b then "True" else "False"
  | .int n => toString n
  | .float x => x.text
  | .text s => Text.quoted s
  | .date d => d.literal
  | .moment m => m.literal

/-- The plain form of a scalar. -/
def Scalar.plain : Scalar → String
  | .text s => s
  | .date d => d.text
  | .moment m => m.text
  | s => s.literal

namespace Value

mutual

/-- The literal form of a value. -/
def literal : Value → String
  | .scalar s => s.literal
  | .list items => "[" ++ literalItems items ++ "]"
  | .map entries => "\x7b" ++ literalEntries entries ++ "\x7d"
  | .again isList => if isList then "[...]" else "\x7b...\x7d"

/-- The literal forms of the items, separated by commas. -/
def literalItems : List Value → String
  | [] => ""
  | [v] => literal v
  | v :: vs => literal v ++ ", " ++ literalItems vs

/-- The literal forms of keys and values, separated by commas. -/
def literalEntries : List (Scalar × Value) → String
  | [] => ""
  | [(k, v)] => k.literal ++ ": " ++ literal v
  | (k, v) :: es => k.literal ++ ": " ++ literal v ++ ", " ++ literalEntries es

end

/-- The plain form of a value. -/
def plain : Value → String
  | .scalar s => s.plain
  | v => v.literal

mutual

/-- Whether a value is to be written: no integer in it has too many digits. -/
def isWritable : Value → Bool
  | .scalar s => s.isWritable
  | .list items => areWritable items
  | .map entries => areWritableEntries entries
  | .again _ => true

/-- Whether all items are to be written. -/
def areWritable : List Value → Bool
  | [] => true
  | v :: vs => isWritable v && areWritable vs

/-- Whether all keys and values are to be written. -/
def areWritableEntries : List (Scalar × Value) → Bool
  | [] => true
  | (k, v) :: es => k.isWritable && isWritable v && areWritableEntries es

end

/-- The absent value. -/
abbrev null : Value := .scalar .null

/-- A text as a value. -/
abbrev text (s : String) : Value := .scalar (.text s)

/-- Whether the value is null. -/
def isNull : Value → Bool
  | .scalar .null => true
  | _ => false

end Value

end ServiceContract
