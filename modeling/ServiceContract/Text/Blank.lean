import ServiceContract.Text.CodePoint

/-!
# Blank characters

White space in the wide sense: the Unicode spaces, the line and paragraph separators, and the
control characters that move the cursor or separate records.

## Main definitions

* `isBlank`: white space.
* `trimmed`: a text without the blanks at both ends.
* `withoutLineEnd`: a text without a line feed at its end.
* `singleSpaced`: a text with each run of blanks replaced by one space.
-/

namespace ServiceContract.Text

/-- The blank characters. -/
def blankRanges : CodePointRanges :=
  [
    (9, 13), (28, 32), (133, 133), (160, 160), (5760, 5760), (8192, 8202), (8232, 8233), (8239,
    8239), (8287, 8287), (12288, 12288)
  ]

/-- Whether a character is white space. -/
def isBlank (c : Char) : Bool :=
  blankRanges.has c

/-- The text without the blanks at both ends. -/
def trimmed (s : List Char) : List Char :=
  ((s.dropWhile isBlank).reverse.dropWhile isBlank).reverse

/-- The text without a line feed at its end. -/
def withoutLineEnd (s : List Char) : List Char :=
  if s.getLast? = some '\n' then s.dropLast else s

/-- Each run of blanks becomes one space; `afterBlank` says that a blank came just before. -/
def singleSpacedFrom (afterBlank : Bool) : List Char → List Char
  | [] => []
  | c :: cs =>
    if isBlank c then
      if afterBlank then singleSpacedFrom true cs else ' ' :: singleSpacedFrom true cs
    else c :: singleSpacedFrom false cs

/-- The text with each run of blanks replaced by one space. -/
def singleSpaced (s : List Char) : List Char :=
  singleSpacedFrom false s

end ServiceContract.Text
