import ServiceContract.Document.Json
import ServiceContract.Document.Yaml.Fault

/-!
# What plain scalars stand for

A plain scalar is read by its form: truth value, floating-point number, integer, null, date or
moment, and otherwise a text. Numbers may have underscores between their digits, integers may be
binary, octal, hexadecimal or sexagesimal (`1:30` is 90).

## Main definitions

* `Plain`: what the form of a plain scalar says.
* `Plain.ofText`: the form of a text.
* `readBool`, `readInt`, `readFloat`, `readMoment`: the values of the forms.
-/

namespace ServiceContract.Yaml

/-- The forms of plain scalars. -/
inductive Plain where
  | bool
  | float
  | int
  | merge
  | null
  | moment
  | default
  | text
deriving DecidableEq

/-! ### Forms -/

/-- A text without a sign in front. -/
def unsigned : List Char → List Char
  | '+' :: s => s
  | '-' :: s => s
  | s => s

/-- A digit or an underscore. -/
def isDigitOrLine (c : Char) : Bool := c.isDigit || c == '_'

/-- A digit, then digits and underscores. -/
def isWhole (s : List Char) : Bool :=
  s.head?.any Char.isDigit && s.all isDigitOrLine

/-- Nothing, or a signed exponent. -/
def isExponent : List Char → Bool
  | [] => true
  | e :: sign :: ds =>
    (e == 'e' || e == 'E') && (sign == '-' || sign == '+') && !ds.isEmpty && ds.all Char.isDigit
  | _ => false

/-- One or two digits that stand for a number below sixty. -/
def isSixty : List Char → Bool
  | [d] => d.isDigit
  | [t, d] => decide ('0' ≤ t) && decide (t ≤ '5') && d.isDigit
  | _ => false

/-- The forms of a floating-point number. -/
def isFloat (s : List Char) : Bool :=
  let body := unsigned s
  let whole := body.takeWhile (· != '.')
  match body.dropWhile (· != '.') with
  | [] => false
  | _ :: rest =>
    let digits := rest.takeWhile isDigitOrLine
    let tail := rest.dropWhile isDigitOrLine
    (isWhole whole && isExponent tail) ||
    (s.head? == some '.' && digits.head?.any Char.isDigit && isExponent tail) ||
    (match Text.splitAt ':' whole with
      | first :: parts => isWhole first && !parts.isEmpty && parts.all isSixty && tail.isEmpty
      | [] => false) ||
    (whole.isEmpty && ["inf".toList, "Inf".toList, "INF".toList].contains rest) ||
    (s.head? == some '.' && ["nan".toList, "NaN".toList, "NAN".toList].contains rest)

/-- The forms of an integer. -/
def isInt (s : List Char) : Bool :=
  match unsigned s with
  | ['0'] => true
  | '0' :: 'b' :: ds => !ds.isEmpty && ds.all fun c => c == '0' || c == '1' || c == '_'
  | '0' :: 'x' :: ds =>
    !ds.isEmpty && ds.all fun c => (Json.hexValue? c).isSome || c == '_'
  | '0' :: ds => !ds.isEmpty && ds.all fun c => (decide ('0' ≤ c) && decide (c ≤ '7')) || c == '_'
  | body =>
    match Text.splitAt ':' body with
    | first :: parts => isWhole first && parts.all isSixty
    | [] => false

/-- A number of digits between two bounds at the start of a text, as many as possible, and the
rest. -/
def digits? (least most : Nat) (s : List Char) : Option (Nat × List Char) :=
  let ds := (s.take most).takeWhile Char.isDigit
  if ds.length < least then none else some (Json.digitsValue ds, s.drop ds.length)

/-- The rest of a text behind a character. -/
def expect? (c : Char) : List Char → Option (List Char)
  | d :: s => if c = d then some s else none
  | [] => none

/-- The offset at the end of a moment: nothing, `Z`, or signed hours with or without minutes. -/
def offset? (s : List Char) : Option (Option Int) :=
  let rest := s.dropWhile fun c => c == ' ' || c == '\t'
  match rest with
  | [] => if s.isEmpty then some none else none
  | ['Z'] => some (some 0)
  | sign :: rest =>
    if sign = '+' ∨ sign = '-' then do
      let (h, rest) ← digits? 1 2 rest
      let (m, rest) ←
        match rest with
        | [] => some (0, [])
        | rest => do digits? 2 2 (← expect? ':' rest)
      if rest.isEmpty then
        let seconds : Int := ((h * 60 + m) * 60 : Nat)
        some (some (if sign = '-' then -seconds else seconds))
      else none
    else none

/-- The date or moment that a text writes, without regard to the calendar. With `strict` a date
without time needs two digits for month and day. -/
def moment? (strict : Bool) (s : List Char) : Option (Date × Option Moment) := do
  let (year, rest) ← digits? 4 4 s
  let rest ← expect? '-' rest
  let (month, afterMonth) ← digits? 1 2 rest
  let monthWidth := rest.length - afterMonth.length
  let rest ← expect? '-' afterMonth
  let (day, afterDay) ← digits? 1 2 rest
  let dayWidth := rest.length - afterDay.length
  let date : Date := { year, month, day }
  if afterDay.isEmpty then
    if strict && (monthWidth != 2 || dayWidth != 2) then none else some (date, none)
  else
    let rest ←
      match afterDay with
      | 'T' :: rest => some rest
      | 't' :: rest => some rest
      | rest =>
        if rest.head?.any fun c => c == ' ' || c == '\t' then
          some (rest.dropWhile fun c => c == ' ' || c == '\t')
        else none
    let (hour, rest) ← digits? 1 2 rest
    let (minute, rest) ← digits? 2 2 (← expect? ':' rest)
    let (second, rest) ← digits? 2 2 (← expect? ':' rest)
    let (fraction, rest) : List Char × List Char :=
      match rest with
      | '.' :: rest => Json.takeDigits rest
      | rest => ([], rest)
    let microsecond := Json.digitsValue
      (fraction.take 6 ++ List.replicate (6 - (fraction.take 6).length) '0')
    let offset ← offset? rest
    some (date, some { date, hour, minute, second, microsecond, offset })

/-- The form of a plain scalar. -/
def Plain.ofText (text : String) : Plain :=
  let s := text.toList
  if ["yes", "Yes", "YES", "no", "No", "NO", "true", "True", "TRUE", "false", "False", "FALSE",
      "on", "On", "ON", "off", "Off", "OFF"].contains text then .bool
  else if isFloat s then .float
  else if isInt s then .int
  else if text = "<<" then .merge
  else if ["~", "null", "Null", "NULL", ""].contains text then .null
  else if (moment? true s).isSome then .moment
  else if text = "=" then .default
  else .text

/-! ### Values -/

/-- The truth value that a word stands for. -/
def readBool (text : String) : Except ReadFault Scalar :=
  let word := String.ofList (Text.lower text.toList)
  if ["yes", "true", "on"].contains word then .ok (.bool true)
  else if ["no", "false", "off"].contains word then .ok (.bool false)
  else .error .malformed

/-- Whether a text has a minus sign in front. -/
def isNegative : List Char → Bool
  | '-' :: _ => true
  | _ => false

/-- A text without the blanks at its ends, with the decimal digits of all scripts as plain
digits. -/
def plainDigits (s : List Char) : List Char :=
  (Text.trimmed s).map fun c =>
    match Text.decimalDigitValue? c with
    | some n => Nat.digitChar n
    | none => c

/-- The letter that marks a base. -/
def baseMark? (base : Nat) : Option Char :=
  if base = 2 then some 'b' else if base = 8 then some 'o' else if base = 16 then some 'x' else none

/-- The digits behind the mark of a base, which may be left out. -/
def withoutMark (base : Nat) : List Char → List Char
  | '0' :: m :: ds => if baseMark? base = some m.toLower then ds else '0' :: m :: ds
  | ds => ds

/-- A number in a base, given its digits. -/
def readDigits (base : Nat) (ds : List Char) : Except ReadFault Nat :=
  if ds.isEmpty then .error .malformed
  else
    match ds.foldlM (fun n d => (Json.hexValue? d).bind fun v =>
        if v < base then some (base * n + v) else none) 0 with
    | some n => .ok n
    | none => .error .malformed

/-- The integer that a text writes in a base. Decimal digits may not be too many. -/
def readBase (base : Nat) (text : List Char) : Except ReadFault Int := do
  let s := plainDigits text
  let ds := withoutMark base (unsigned s)
  if base = 10 ∧ ds.length > maxDigits then throw .malformed
  return Json.signed (isNegative s) (← readDigits base ds)

/-- The integer that a text writes. -/
def readInt (text : String) : Except ReadFault Scalar := do
  let s := text.toList.filter (· != '_')
  let n ←
    match unsigned s with
    | ['0'] => pure 0
    | '0' :: 'b' :: ds => readBase 2 ds
    | '0' :: 'x' :: ds => readBase 16 ds
    | '0' :: ds => readBase 8 ('0' :: ds)
    | body => do
      let parts ← (Text.splitAt ':' body).mapM (readBase 10)
      pure (parts.foldl (fun n d => 60 * n + d) 0)
  return .int (if isNegative s then -n else n)

/-- A decimal number with or without a point and an exponent. -/
def readPointed (s : List Char) : Except ReadFault Binary64 :=
  let (whole, rest) := Json.takeDigits s
  let (fraction, rest) : List Char × List Char :=
    match rest with
    | '.' :: rest => Json.takeDigits rest
    | rest => ([], rest)
  let (exponent, rest) := Json.takeExponent rest
  if (whole ++ fraction).isEmpty || !rest.isEmpty then .error .malformed
  else
    .ok (.ofDecimal false (Json.digitsValue (whole ++ fraction))
      (exponent.getD 0 - fraction.length))

/-- The number with a sign that a text in small letters writes. -/
def readReal (text : List Char) : Except ReadFault Binary64 := do
  let s := plainDigits text
  let body := unsigned s
  let x ←
    if body = "inf".toList ∨ body = "infinity".toList then pure (.infinity false)
    else if body = "nan".toList then pure .nan
    else readPointed body
  return if isNegative s then x.neg else x

/-- The sum of sexagesimal digits, least significant first, each multiplied by its power of sixty.
Sum and products are rounded one after the other. -/
def sumSixties (power : Nat) (sum : Binary64) : List Binary64 → Binary64
  | [] => sum
  | d :: ds =>
    sumSixties (60 * power) (sum.add (d.mul (.ofInt power))) ds

/-- The floating-point number that a text writes. -/
def readFloat (text : String) : Except ReadFault Scalar := do
  let s := Text.lower (text.toList.filter (· != '_'))
  let body := unsigned s
  let x ←
    if body = ".inf".toList then pure (.infinity false)
    else if body = ".nan".toList then pure .nan
    else if body.contains ':' then do
      let parts ← (Text.splitAt ':' body).mapM readReal
      pure (sumSixties 1 (.ofInt 0) parts.reverse)
    else readReal body
  return .float (if isNegative s then x.neg else x)

/-- The date or moment that a text writes. -/
def readMoment (text : String) : Except ReadFault Scalar :=
  match moment? false (Text.withoutLineEnd text.toList) with
  | some (date, none) => if date.isValid then .ok (.date date) else .error .malformed
  | some (_, some moment) => if moment.isValid then .ok (.moment moment) else .error .malformed
  | none => .error .malformed

end ServiceContract.Yaml
