/-!
# Splitting and replacing

## Main definitions

* `splitAt`: the parts of a text between the occurrences of a character.
* `replaceAll`: a text with each occurrence of a pattern replaced.
-/

namespace ServiceContract.Text

/-- The parts of a text between the occurrences of a character. There is one part more than there
are occurrences. -/
def splitAt (separator : Char) : List Char → List (List Char)
  | [] => [[]]
  | c :: cs =>
    if c = separator then [] :: splitAt separator cs
    else
      match splitAt separator cs with
      | [] => [[c]]
      | part :: parts => (c :: part) :: parts

/-- Replacement from left to right, after `skip` characters that belong to an occurrence already
replaced. -/
def replaceAfter (pattern replacement : List Char) : Nat → List Char → List Char
  | _, [] => []
  | skip + 1, _ :: cs => replaceAfter pattern replacement skip cs
  | 0, c :: cs =>
    if pattern.isPrefixOf (c :: cs) then
      replacement ++ replaceAfter pattern replacement (pattern.length - 1) cs
    else c :: replaceAfter pattern replacement 0 cs

/-- The text with each occurrence of a pattern, which is not empty, replaced from left to right.
What is put in is not looked at again. -/
def replaceAll (pattern replacement s : List Char) : List Char :=
  replaceAfter pattern replacement 0 s

end ServiceContract.Text
