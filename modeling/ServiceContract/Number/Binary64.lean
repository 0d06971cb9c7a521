/-!
# Double-precision numbers

A double-precision number is not a number, an infinity, or `± mantissa · 2 ^ exponent` with a
mantissa of at most 53 bits and an exponent of at least -1074. Numbers are rounded to the nearest
such value, ties to the even mantissa, by exact arithmetic on natural numbers.

## Main definitions

* `Binary64`: the values.
* `Binary64.ofRatio`: the value nearest to a quotient.
* `Binary64.ofDecimal`: the value nearest to `± digits · 10 ^ exponent`.
* `Binary64.toInt?`: the integer that a value is equal to.
* `Binary64.add`, `Binary64.mul`: the rounded sum and product.
-/

namespace ServiceContract

/-- The double-precision numbers. A finite value is kept with a mantissa of exactly 53 bits or with
the least exponent, so that equal values have one form. -/
inductive Binary64 where
  | nan
  | infinity (negative : Bool)
  | finite (negative : Bool) (mantissa : Nat) (exponent : Int)
deriving DecidableEq, Inhabited

namespace Binary64

/-- The least exponent. -/
def leastExponent : Int := -1074

/-- The greatest exponent. -/
def greatestExponent : Int := 971

/-- The quotient rounded to the nearest integer, ties to even. -/
def roundDiv (num den : Nat) : Nat :=
  let q := num / den
  let r := num % den
  if 2 * r < den then q
  else if 2 * r > den then q + 1
  else if q % 2 = 0 then q else q + 1

/-- The quotient `num / (den · 2 ^ e)` as a pair of natural numbers. -/
def scaled (num den : Nat) (e : Int) : Nat × Nat :=
  (num * Nat.pow 2 (-e).toNat, den * Nat.pow 2 e.toNat)

/-- The exponent with which `num / den` gets a mantissa of 53 bits, or the least exponent. -/
def exponentFor (num den : Nat) : Int :=
  let e : Int := (Nat.log2 num : Int) - Nat.log2 den - 52
  let q := scaled num den e
  max leastExponent (if q.1 / q.2 < Nat.pow 2 52 then e - 1 else e)

/-- The value nearest to `± num / den`, for a positive `den`. -/
def ofRatio (negative : Bool) (num den : Nat) : Binary64 :=
  if num = 0 then .finite negative 0 leastExponent
  else
    let e := exponentFor num den
    let q := scaled num den e
    let m := roundDiv q.1 q.2
    let (m, e) := if m = Nat.pow 2 53 then (Nat.pow 2 52, e + 1) else (m, e)
    if e > greatestExponent then .infinity negative else .finite negative m e

/-- The value nearest to `± digits · 10 ^ exponent`. Far beyond both ends of the range the answer is
an infinity or zero whatever the digits. -/
def ofDecimal (negative : Bool) (digits : Nat) (exponent : Int) : Binary64 :=
  let size : Int := (Nat.log2 digits : Int) * 30103 / 100000 + exponent
  if digits = 0 then .finite negative 0 leastExponent
  else if size > 400 then .infinity negative
  else if size < -400 then .finite negative 0 leastExponent
  else ofRatio negative (digits * Nat.pow 10 exponent.toNat) (Nat.pow 10 (-exponent).toNat)

/-- The value nearest to an integer. -/
def ofInt (n : Int) : Binary64 :=
  ofRatio (decide (n < 0)) n.natAbs 1

/-- The integer that a value is equal to, if there is one. -/
def toInt? : Binary64 → Option Int
  | .finite negative m e =>
    let num := m * Nat.pow 2 e.toNat
    let den := Nat.pow 2 (-e).toNat
    if num % den = 0 then some (if negative then -((num / den : Nat) : Int) else (num / den : Nat))
    else none
  | _ => none

/-- Whether the value is zero, of either sign. -/
def isZero : Binary64 → Bool
  | .finite _ m _ => m == 0
  | _ => false

/-- Whether the sign is negative. -/
def isNegative : Binary64 → Bool
  | .nan => false
  | .infinity negative => negative
  | .finite negative _ _ => negative

/-- The value with the other sign. -/
def neg : Binary64 → Binary64
  | .nan => .nan
  | .infinity negative => .infinity !negative
  | .finite negative m e => .finite (!negative) m e

/-- The signed multiple of `2 ^ e` that a finite value is, for `e` at most its exponent. -/
def unitsOf (negative : Bool) (m : Nat) (exponent e : Int) : Int :=
  let n : Int := (m * Nat.pow 2 (exponent - e).toNat : Nat)
  if negative then -n else n

/-- The rounded sum. -/
def add : Binary64 → Binary64 → Binary64
  | .nan, _ => .nan
  | _, .nan => .nan
  | .infinity a, .infinity b => if a = b then .infinity a else .nan
  | .infinity a, _ => .infinity a
  | _, .infinity b => .infinity b
  | .finite a m e, .finite b n f =>
    let g := min e f
    let sum := unitsOf a m e g + unitsOf b n f g
    let negative := if sum = 0 then a && b else decide (sum < 0)
    ofRatio negative (sum.natAbs * Nat.pow 2 g.toNat) (Nat.pow 2 (-g).toNat)

/-- The rounded product. -/
def mul : Binary64 → Binary64 → Binary64
  | .nan, _ => .nan
  | _, .nan => .nan
  | .infinity a, y => if y.isZero then .nan else .infinity (a != y.isNegative)
  | x, .infinity b => if x.isZero then .nan else .infinity (x.isNegative != b)
  | .finite a m e, .finite b n f =>
    ofRatio (a != b) (m * n * Nat.pow 2 (e + f).toNat) (Nat.pow 2 (-(e + f)).toNat)

end Binary64

end ServiceContract
