import ServiceContract.Text.Case
import ServiceContract.Text.Digit
import ServiceContract.Text.Letter

/-!
# Names made of words

A name of a document is split into its words, the maximal runs of letters and digits, and the words
are joined again in one of three styles. What separates the words, underscores included, is dropped.

* `snake_case_name` in camel case is `snakeCaseName`, `x-trace-id` is `xTraceId`; only the first
  character of each word changes, so a name in camel case stays as it is.
* `pet store` in Pascal case is `PetStore`.
* `in-progress` as a constant is `IN_PROGRESS`. Here a word also ends at a hump: `HTTPServer`
  becomes `HTTP_SERVER`.

## Main definitions

* `words`: the words of a text.
* `camel`, `pascal`, `constant`: the three styles.
-/

namespace ServiceContract.Naming

open ServiceContract.Text

/-! ### Words -/

/-- The words of a text whose first word goes on from the characters `word`. -/
def wordsAfter : List Char → List Char → List (List Char)
  | word, [] => if word.isEmpty then [] else [word]
  | word, c :: cs =>
    if isWordChar c then wordsAfter (word ++ [c]) cs
    else if word.isEmpty then wordsAfter [] cs
    else word :: wordsAfter [] cs

/-- The words of a text: its maximal runs of letters and digits, in order. -/
def words (s : List Char) : List (List Char) :=
  wordsAfter [] s

/-! ### Camel and Pascal case -/

/-- The camel-case form of a text: the first word with a small initial, the others with a capital
one. -/
def camelChars (s : List Char) : List Char :=
  match words s with
  | [] => []
  | word :: others => lowerFirst word ++ others.flatMap upperFirst

/-- The Pascal-case form of a text: every word with a capital initial. -/
def pascalChars (s : List Char) : List Char :=
  (words s).flatMap upperFirst

/-- The camel-case form of a name. It is empty if the name has no letter and no digit. -/
def camel (name : String) : String :=
  String.ofList (camelChars name.toList)

/-- The Pascal-case form of a name. It is empty if the name has no letter and no digit. -/
def pascal (name : String) : String :=
  String.ofList (pascalChars name.toList)

/-! ### Constants -/

/-- Whether a word starts at the capital letter `c` between `before` and the text `after`: a small
letter or a digit comes before it, or a capital before and a small letter after it. -/
def isHump (before : Option Char) (c : Char) (after : List Char) : Bool :=
  c.isUpper && before.any fun b =>
    b.isLower || isDecimalDigit b || (b.isUpper && after.head?.any Char.isLower)

/-- The text with an underscore in front of each hump; `before` is the character in front of it. -/
def breakHumpsAfter (before : Option Char) : List Char → List Char
  | [] => []
  | c :: cs =>
    if isHump before c cs then '_' :: c :: breakHumpsAfter (some c) cs
    else c :: breakHumpsAfter (some c) cs

/-- The text with an underscore in front of each hump. -/
def breakHumps (s : List Char) : List Char :=
  breakHumpsAfter none s

/-- The words of a text, divided at humps too, in capitals and joined by underscores. -/
def constantBody (s : List Char) : List Char :=
  upper (['_'].intercalate (words (lower (breakHumps s))))

/-- The constant form of a text, `EMPTY` if it has no word, with `V_` in front of a digit. -/
def constantChars (s : List Char) : List Char :=
  match constantBody s with
  | [] => ['E', 'M', 'P', 'T', 'Y']
  | c :: cs => if isDigitLike c then 'V' :: '_' :: c :: cs else c :: cs

/-- The name of the constant that stands for a value. -/
def constant (value : String) : String :=
  String.ofList (constantChars value.toList)

end ServiceContract.Naming
