import ServiceContract.Text.CodePoint

/-!
# Digits

Two classes of digits: the decimal digits of every script, which count in positional notation, and
the wider class that also has superscripts, subscripts and circled digits.

## Main definitions

* `isDecimalDigit`: the decimal digits.
* `isDigitLike`: the decimal digits and the characters that only look like a digit.
* `decimalDigitValue?`: the number that a decimal digit stands for.
* `naturalOfDigits?`: the number that a run of decimal digits stands for.
-/

namespace ServiceContract.Text

/-- The decimal digits from code point 128 on. Each range is made of runs of ten, zero to nine. -/
def decimalDigitRanges : CodePointRanges :=
  [
    (1632, 1641), (1776, 1785), (1984, 1993), (2406, 2415), (2534, 2543), (2662, 2671), (2790,
    2799), (2918, 2927), (3046, 3055), (3174, 3183), (3302, 3311), (3430, 3439), (3558, 3567),
    (3664, 3673), (3792, 3801), (3872, 3881), (4160, 4169), (4240, 4249), (6112, 6121), (6160,
    6169), (6470, 6479), (6608, 6617), (6784, 6793), (6800, 6809), (6992, 7001), (7088, 7097),
    (7232, 7241), (7248, 7257), (42528, 42537), (43216, 43225), (43264, 43273), (43472, 43481),
    (43504, 43513), (43600, 43609), (44016, 44025), (65296, 65305), (66720, 66729), (68912,
    68921), (69734, 69743), (69872, 69881), (69942, 69951), (70096, 70105), (70384, 70393),
    (70736, 70745), (70864, 70873), (71248, 71257), (71360, 71369), (71472, 71481), (71904,
    71913), (72016, 72025), (72784, 72793), (73040, 73049), (73120, 73129), (92768, 92777),
    (92864, 92873), (93008, 93017), (120782, 120831), (123200, 123209), (123632, 123641), (125264,
    125273), (130032, 130041)
  ]

/-- The digits of both classes from code point 128 on. -/
def digitLikeRanges : CodePointRanges :=
  [
    (178, 179), (185, 185), (1632, 1641), (1776, 1785), (1984, 1993), (2406, 2415), (2534, 2543),
    (2662, 2671), (2790, 2799), (2918, 2927), (3046, 3055), (3174, 3183), (3302, 3311), (3430,
    3439), (3558, 3567), (3664, 3673), (3792, 3801), (3872, 3881), (4160, 4169), (4240, 4249),
    (4969, 4977), (6112, 6121), (6160, 6169), (6470, 6479), (6608, 6618), (6784, 6793), (6800,
    6809), (6992, 7001), (7088, 7097), (7232, 7241), (7248, 7257), (8304, 8304), (8308, 8313),
    (8320, 8329), (9312, 9320), (9332, 9340), (9352, 9360), (9450, 9450), (9461, 9469), (9471,
    9471), (10102, 10110), (10112, 10120), (10122, 10130), (42528, 42537), (43216, 43225), (43264,
    43273), (43472, 43481), (43504, 43513), (43600, 43609), (44016, 44025), (65296, 65305),
    (66720, 66729), (68160, 68163), (68912, 68921), (69216, 69224), (69714, 69722), (69734,
    69743), (69872, 69881), (69942, 69951), (70096, 70105), (70384, 70393), (70736, 70745),
    (70864, 70873), (71248, 71257), (71360, 71369), (71472, 71481), (71904, 71913), (72016,
    72025), (72784, 72793), (73040, 73049), (73120, 73129), (92768, 92777), (92864, 92873),
    (93008, 93017), (120782, 120831), (123200, 123209), (123632, 123641), (125264, 125273),
    (127232, 127242), (130032, 130041)
  ]

/-- Whether a character is a decimal digit of some script. -/
def isDecimalDigit (c : Char) : Bool :=
  if c.toNat < 128 then c.isDigit else decimalDigitRanges.has c

/-- Whether a character is a decimal digit or looks like one, as superscripts do. -/
def isDigitLike (c : Char) : Bool :=
  if c.toNat < 128 then c.isDigit else digitLikeRanges.has c

/-- The number from 0 to 9 that a decimal digit stands for. -/
def decimalDigitValue? (c : Char) : Option Nat :=
  if c.toNat < 128 then
    if c.isDigit then some (c.toNat - 48) else none
  else
    (decimalDigitRanges.find? fun range =>
      decide (range.1 ≤ c.toNat) && decide (c.toNat ≤ range.2)).map fun range =>
        (c.toNat - range.1) % 10

/-- The number written by a non-empty run of decimal digits, most significant first. -/
def naturalOfDigits? : List Char → Option Nat
  | [] => none
  | c :: cs => (c :: cs).foldlM (fun n c => (decimalDigitValue? c).map (10 * n + ·)) 0

/-- Below 128 the wider class is core's digits. -/
theorem isDigitLike_of_lt {c : Char} (h : c.toNat < 128) : isDigitLike c = c.isDigit := by
  simp [isDigitLike, h]

theorem isAlphanum_of_isDigit {c : Char} (h : c.isDigit = true) : c.isAlphanum = true :=
  (Bool.or_eq_true _ _).mpr (.inr h)

/-- Core's letters and digits are below 128. -/
theorem lt_of_isAlphanum {c : Char} (h : c.isAlphanum = true) : c.toNat < 128 := by
  have hlt (last : UInt32) (hlast : last.toNat < 128) (h : c.val ≤ last) : c.toNat < 128 :=
    Nat.lt_of_le_of_lt (UInt32.le_iff_toNat_le.mp h) hlast
  rcases (Bool.or_eq_true _ _).mp h with halpha | hdigit
  · rcases (Bool.or_eq_true _ _).mp halpha with hupper | hlower
    · exact hlt 90 (by decide) (of_decide_eq_true hupper).2
    · exact hlt 122 (by decide) (of_decide_eq_true ((Bool.and_eq_true _ _).mp hlower).2)
  · exact hlt 57 (by decide) (of_decide_eq_true ((Bool.and_eq_true _ _).mp hdigit).2)

/-- Core's digits look like digits. -/
theorem isDigitLike_of_isDigit {c : Char} (h : c.isDigit = true) : isDigitLike c = true := by
  rw [isDigitLike_of_lt (lt_of_isAlphanum (isAlphanum_of_isDigit h)), h]

end ServiceContract.Text
