import ServiceContract.Number.Binary64

/-!
# The decimal text of double-precision numbers

A number is written with the fewest significant digits that read back as the same number, and among
these with the digits nearest to it. A decimal reads back when it lies between the midpoints towards
the two neighbouring numbers; the midpoints themselves count when the mantissa is even.

The digits are written positionally when the leading digit stands for a power of ten from -4 to 15,
always with a decimal point, and otherwise with an exponent of at least two digits and a sign.

## Main definitions

* `Binary64.shortest`: the digits and the power of ten of the last one.
* `Binary64.text`: the decimal text.
-/

namespace ServiceContract.Binary64

/-! ### The digits -/

/-- A positive number `value / den` with the ends of the interval that rounds to it, as quotients
with the same denominator. -/
structure RoundingInterval where
  low : Nat
  value : Nat
  high : Nat
  den : Nat
  closed : Bool

/-- The interval of `mantissa · 2 ^ exponent`, measured in units of `10 ^ grid`. Below a power of
two the gap is half as wide. -/
def RoundingInterval.of (mantissa : Nat) (exponent grid : Int) : RoundingInterval :=
  let scale := Nat.pow 2 (exponent - 2).toNat * Nat.pow 10 (-grid).toNat
  let gapBelow := if mantissa = Nat.pow 2 52 ∧ exponent > leastExponent then 1 else 2
  { low := (4 * mantissa - gapBelow) * scale
    value := 4 * mantissa * scale
    high := (4 * mantissa + 2) * scale
    den := Nat.pow 2 (2 - exponent).toNat * Nat.pow 10 grid.toNat
    closed := mantissa % 2 == 0 }

/-- Whether the integer `d` lies in the interval. -/
def RoundingInterval.has (i : RoundingInterval) (d : Nat) : Bool :=
  if i.closed then decide (i.low ≤ d * i.den) && decide (d * i.den ≤ i.high)
  else decide (i.low < d * i.den) && decide (d * i.den < i.high)

/-- The integer of the interval nearest to its value, if one of the two neighbours of the value lies
in it; on a tie the even one. -/
def RoundingInterval.nearest? (i : RoundingInterval) : Option Nat :=
  let d := i.value / i.den
  match i.has d, i.has (d + 1) with
  | false, false => none
  | true, false => some d
  | false, true => some (d + 1)
  | true, true => some (roundDiv i.value i.den)

/-- The least power of ten above `mantissa · 2 ^ exponent`, found from an estimate that is too small
by at most three. -/
def decimalSize (mantissa : Nat) (exponent : Int) : Int :=
  let estimate := ((Nat.log2 mantissa : Int) + exponent) * 30103 / 100000 - 1
  let below (k : Int) : Bool :=
    decide (mantissa * Nat.pow 2 exponent.toNat * Nat.pow 10 (-k).toNat <
      Nat.pow 2 (-exponent).toNat * Nat.pow 10 k.toNat)
  ([estimate, estimate + 1, estimate + 2].find? below).getD (estimate + 3)

/-- Trailing zeros moved into the power of ten; `fuel` bounds their number. -/
def dropZeros : Nat → Nat → Int → Nat × Int
  | 0, digits, power => (digits, power)
  | fuel + 1, digits, power =>
    if digits % 10 = 0 ∧ digits ≠ 0 then dropZeros fuel (digits / 10) (power + 1)
    else (digits, power)

/-- The fewest digits that read back as the positive number `mantissa · 2 ^ exponent`, with the
power of ten of the last digit. Seventeen digits are always enough. -/
def shortest (mantissa : Nat) (exponent : Int) : Nat × Int :=
  let size := decimalSize mantissa exponent
  let found := (List.range 17).findSome? fun n =>
    let grid := size - (n + 1 : Nat)
    (RoundingInterval.of mantissa exponent grid).nearest?.map fun d => dropZeros 18 d grid
  found.getD (mantissa * Nat.pow 2 exponent.toNat * Nat.pow 5 (-exponent).toNat, min exponent 0)

/-! ### The layout -/

/-- The exponent part: a sign and at least two digits. -/
def exponentText (e : Int) : String :=
  let digits := toString e.natAbs
  (if e < 0 then "e-" else "e+") ++ (if digits.length < 2 then "0" ++ digits else digits)

/-- Digits laid out, given the power of ten of the last one. -/
def layout (digits : Nat) (power : Int) : String :=
  let ds := (toString digits).toList
  let leading : Int := ds.length - 1 + power
  if -4 ≤ leading ∧ leading < 16 then
    if power ≥ 0 then String.ofList (ds ++ List.replicate power.toNat '0' ++ ['.', '0'])
    else if leading < 0 then
      String.ofList ('0' :: '.' :: List.replicate (-leading - 1).toNat '0' ++ ds)
    else
      String.ofList (ds.take (leading + 1).toNat ++ '.' :: ds.drop (leading + 1).toNat)
  else
    String.ofList (ds.take 1 ++ (if ds.length > 1 then '.' :: ds.drop 1 else []))
      ++ exponentText leading

/-- The decimal text of a number. -/
def text : Binary64 → String
  | .nan => "nan"
  | .infinity negative => if negative then "-inf" else "inf"
  | .finite negative m e =>
    (if negative then "-" else "") ++
      (if m = 0 then "0.0" else layout (shortest m e).1 (shortest m e).2)

end ServiceContract.Binary64
