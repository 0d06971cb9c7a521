/-!
# Halves of surrogate pairs

A text may hold the code point of one half of a surrogate pair, which no character has. Such a code
point is kept as a character of the last private-use plane, at the same distance from its start. The
characters that are taken in this way, and the last character of all, the *mark*, are written as
two: behind the mark stands the mark itself, or a character of the block in front of those that are
taken. So every sequence of code points has a text of its own, and a text in which neither occurs is
written as it is.

## Main definitions

* `ofCodePoint`, `codePoints`: from code points to characters and back.
* `isHalf`: whether a character stands for one half of a pair.
* `joinUnits`: the characters of code units, in which two halves that follow each other are a pair.
* `ofPlain`, `plain?`: from texts in which each character stands for itself, and back.

## Main results

* `flatMap_codePoints`: the characters of a text are those of its code points.
* `codePoints_injective`: different texts have different code points.
-/

namespace ServiceContract.Text

/-- The first half of a pair. -/
def isHighSurrogate (n : Nat) : Bool := decide (0xD800 ≤ n) && decide (n < 0xDC00)

/-- The second half of a pair. -/
def isLowSurrogate (n : Nat) : Bool := decide (0xDC00 ≤ n) && decide (n < 0xE000)

/-- Either half of a pair. -/
def isSurrogate (n : Nat) : Bool := decide (0xD800 ≤ n) && decide (n < 0xE000)

/-- The distance from the halves of pairs to the characters that stand for them. -/
def surrogateShift : Nat := 0x100000

/-- Whether a code point is that of a character which stands for one half of a pair. -/
def isTaken (n : Nat) : Bool :=
  decide (surrogateShift ≤ n) && isSurrogate (n - surrogateShift)

/-- Whether a character stands for one half of a pair. -/
def isHalf (c : Char) : Bool := isTaken c.toNat

/-- The character in front of one that does not stand for itself. -/
def mark : Char := Char.ofNat 0x10FFFF

/-- The number of halves, by which the characters that stand for them are moved. -/
def halfCount : Nat := 0x800

/-- The characters that stand for a code point. What is beyond all code points is a mark alone. -/
def ofCodePoint (n : Nat) : List Char :=
  if isSurrogate n then [Char.ofNat (n + surrogateShift)]
  else if isTaken n then [mark, Char.ofNat (n - halfCount)]
  else if n = mark.toNat then [mark, mark]
  else if n > mark.toNat then [mark]
  else [Char.ofNat n]

/-- The code point that a character other than the mark stands for. -/
def codePoint (c : Char) : Nat :=
  if isHalf c then c.toNat - surrogateShift else c.toNat

/-- The code point that the mark and a character behind it stand for, if they belong together. -/
def markedCodePoint? (c : Char) : Option Nat :=
  if c = mark then some mark.toNat
  else if isTaken (c.toNat + halfCount) then some (c.toNat + halfCount)
  else none

/-- The code points of a text. -/
def codePoints : List Char → List Nat
  | [] => []
  | [c] => if c = mark then [mark.toNat + 1] else [codePoint c]
  | c :: d :: s =>
    if c = mark then
      match markedCodePoint? d with
      | some n => n :: codePoints s
      | none => (mark.toNat + 1) :: codePoints (d :: s)
    else codePoint c :: codePoints (d :: s)

/-- The code point of a pair. -/
def pairedCodePoint (high low : Nat) : Nat :=
  0x10000 + (high - 0xD800) * 0x400 + (low - 0xDC00)

/-- The characters of code units, which are given in reverse, in front of `rest`. A half without its
other half stands for itself. -/
def joinUnits (rest : List Char) : List Nat → List Char
  | [] => rest
  | [n] => ofCodePoint n ++ rest
  | n :: m :: ns =>
    if isHighSurrogate m && isLowSurrogate n then
      joinUnits (ofCodePoint (pairedCodePoint m n) ++ rest) ns
    else joinUnits (ofCodePoint n ++ rest) (m :: ns)

/-- Whether a text holds one half of a pair; such a text has no encoding. -/
def hasHalf (s : String) : Bool :=
  s.toList.any isHalf

/-- The text of characters of which each stands for itself. -/
def ofPlain (s : String) : String :=
  String.ofList (s.toList.flatMap fun c => ofCodePoint c.toNat)

/-- The characters of a text, each for itself, if it has an encoding. -/
def plain? (s : String) : Option String :=
  if hasHalf s then none else some (String.ofList ((codePoints s.toList).map Char.ofNat))

/-! ### Code points and characters -/

theorem isTaken_iff {n : Nat} : isTaken n = true ↔ 0x10D800 ≤ n ∧ n < 0x10E000 := by
  simp only [isTaken, isSurrogate, Bool.and_eq_true, decide_eq_true_eq]
  unfold surrogateShift
  omega

theorem toNat_mark : mark.toNat = 0x10FFFF := rfl

theorem ofCodePoint_codePoint {c : Char} (h : c ≠ mark) : ofCodePoint (codePoint c) = [c] := by
  by_cases hhalf : isHalf c = true
  · obtain ⟨hshift, hsurrogate⟩ := Bool.and_eq_true_iff.mp hhalf
    rw [codePoint, if_pos hhalf, ofCodePoint, if_pos hsurrogate,
      Nat.sub_add_cancel (of_decide_eq_true hshift), Char.ofNat_toNat]
  · have hvalid : c.toNat.isValidChar := c.valid
    have htaken : ¬ isTaken c.toNat = true := hhalf
    have hmark : c.toNat ≠ mark.toNat := fun heq => h (Char.toNat_inj.mp heq)
    have hsurrogate : isSurrogate c.toNat = false := by
      simp only [Nat.isValidChar, isSurrogate, Bool.and_eq_false_iff,
        decide_eq_false_iff_not] at hvalid ⊢
      omega
    have hlast : ¬ c.toNat > mark.toNat := by
      simp only [Nat.isValidChar, toNat_mark] at hvalid ⊢
      omega
    rw [codePoint, if_neg hhalf, ofCodePoint, hsurrogate, if_neg Bool.false_ne_true, if_neg htaken,
      if_neg hmark, if_neg hlast, Char.ofNat_toNat]

theorem ofCodePoint_marked {c : Char} {n : Nat} (h : markedCodePoint? c = some n) :
    ofCodePoint n = [mark, c] := by
  unfold markedCodePoint? at h
  split at h
  next hmark =>
    cases h
    rw [hmark]
    decide
  split at h
  next htaken =>
    cases h
    have hsurrogate : isSurrogate (c.toNat + halfCount) = false := by
      have htaken := isTaken_iff.mp htaken
      simp only [isSurrogate, Bool.and_eq_false_iff, decide_eq_false_iff_not]
      omega
    rw [ofCodePoint, hsurrogate, if_neg Bool.false_ne_true, if_pos htaken, Nat.add_sub_cancel,
      Char.ofNat_toNat]
  next => cases h

/-- The characters of a text are those of its code points. -/
theorem flatMap_codePoints (s : List Char) : (codePoints s).flatMap ofCodePoint = s := by
  have hstray : ofCodePoint (mark.toNat + 1) = [mark] := by decide
  fun_induction codePoints s with
  | case1 => rfl
  | case2 => exact hstray
  | case3 c h => exact (List.append_nil _).trans (ofCodePoint_codePoint h)
  | case4 d s n hn ih => rw [List.flatMap_cons, ofCodePoint_marked hn, ih]; rfl
  | case5 d s hn ih => rw [List.flatMap_cons, hstray, ih]; rfl
  | case6 c d s h ih => rw [List.flatMap_cons, ofCodePoint_codePoint h, ih]; rfl

/-- Different texts have different code points. -/
theorem codePoints_injective {s t : List Char} (h : codePoints s = codePoints t) : s = t := by
  rw [← flatMap_codePoints s, h, flatMap_codePoints]

/-- A character that stands for a half elsewhere is written as two, and read back as itself. -/
example : (ofPlain (String.singleton (Char.ofNat 0x10D800))).length = 2 ∧
    plain? (ofPlain (String.singleton (Char.ofNat 0x10D800))) =
      some (String.singleton (Char.ofNat 0x10D800)) := by
  decide

end ServiceContract.Text
