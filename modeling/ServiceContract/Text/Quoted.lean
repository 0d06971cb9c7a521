import ServiceContract.Text.Printable
import ServiceContract.Text.Surrogate

/-!
# Quoted text

Quoted text shows a string between quotes on one line. Single quotes are used, unless the string has
a single quote and no double quote. The quote in use, the backslash and every character that is not
printable are escaped: line feed, carriage return and tab by a letter, the others by their code
point in two, four or eight hexadecimal digits.

## Main definitions

* `hexDigits`: a number in a given count of hexadecimal digits.
* `quoted`: the quoted form of a string.
-/

namespace ServiceContract.Text

/-- The last `count` hexadecimal digits of a number, in small letters. -/
def hexDigits : Nat → Nat → List Char
  | 0, _ => []
  | count + 1, n => hexDigits count (n / 16) ++ [Nat.digitChar (n % 16)]

/-- The escaped form of a character that is not printable, given by its code point. -/
def escapedCode (n : Nat) : List Char :=
  if n < 0x100 then '\\' :: 'x' :: hexDigits 2 n
  else if n < 0x10000 then '\\' :: 'u' :: hexDigits 4 n
  else '\\' :: 'U' :: hexDigits 8 n

/-- How the character with a code point is shown between the quotes `quote`. -/
def shownBetween (quote : Char) (n : Nat) : List Char :=
  let c := Char.ofNat n
  if c = quote ∨ c = '\\' then ['\\', c]
  else if c = '\n' then ['\\', 'n']
  else if c = '\r' then ['\\', 'r']
  else if c = '\t' then ['\\', 't']
  else if isPrintable c then [c]
  else escapedCode n

/-- The quote that a string is shown between. -/
def quoteFor (s : List Char) : Char :=
  if s.contains '\'' && !s.contains '"' then '"' else '\''

/-- The quoted form of a text. -/
def quotedChars (s : List Char) : List Char :=
  quoteFor s :: (codePoints s).flatMap (shownBetween (quoteFor s)) ++ [quoteFor s]

/-- The quoted form of a string. -/
def quoted (s : String) : String :=
  String.ofList (quotedChars s.toList)

end ServiceContract.Text
