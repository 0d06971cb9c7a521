import ServiceContract.Text.Case
import ServiceContract.Text.Replace
import ServiceContract.Text.Surrogate

/-!
# Path names

A path is known by its components; empty components and single points say nothing. The last
component is the name of the file; a point at its start starts no suffix. Two points lead back to
the directory around.

## Main definitions

* `PathName`: a path by its components.
* `PathName.suffix`: the end of the file name that tells its format.
* `PathName.isUsable`: whether a file can have this name.
* `PathName.parent`: the path of the directory that the file is in.
* `PathName.place?`, `PathName.directories`: where a path leads to, and through which directories.
-/

namespace ServiceContract

/-- A path: whether it starts at the root, and its components, none of which is empty or a point. -/
structure PathName where
  root : String
  components : List String
deriving DecidableEq, Inhabited

namespace PathName

/-- The path that a text writes. Two slashes in front are kept as they are. -/
def ofText (s : String) : PathName :=
  let slashes := (s.toList.takeWhile (· == '/')).length
  { root := if slashes = 2 then "//" else if slashes = 0 then "" else "/"
    components := ((Text.splitAt '/' s.toList).filter fun part =>
      !part.isEmpty && part != ['.']).map String.ofList }

/-- The text of a path. -/
def text (p : PathName) : String :=
  if p.root.isEmpty && p.components.isEmpty then "."
  else p.root ++ "/".intercalate p.components

/-- The last component. -/
def name (p : PathName) : String :=
  p.components.getLast?.getD ""

/-- The end of the name from its last point on, if there is something on both sides of the point. -/
def suffix (p : PathName) : String :=
  let name := p.name.toList
  let ending := (name.reverse.takeWhile (· != '.')).reverse
  if ending.isEmpty || ending.length + 1 ≥ name.length then ""
  else String.ofList ('.' :: ending)

/-- Whether the file is JSON. -/
def isJson (p : PathName) : Bool :=
  Text.lower p.suffix.toList == ".json".toList

/-- Whether a character may stand in the name of a file: the null character may not, and of the
halves of pairs only those that stand for bytes. -/
def isNameChar (c : Char) : Bool :=
  c.toNat != 0 && (!Text.isHalf c ||
    (decide (0xDC80 ≤ Text.codePoint c) && decide (Text.codePoint c ≤ 0xDCFF)))

/-- Whether a file can have this name. -/
def isUsable (p : PathName) : Bool :=
  p.components.all fun component => component.toList.all isNameChar

/-- The path of the directory that the file is in. -/
def parent (p : PathName) : PathName :=
  { p with components := p.components.dropLast }

/-- The components of a place after further components, none if they lead out of the folder. -/
def placeFrom (place : List String) : List String → Option (List String)
  | [] => some place
  | c :: cs =>
    if c = ".." then
      if place.isEmpty then none else placeFrom place.dropLast cs
    else placeFrom (place ++ [c]) cs

/-- The place that a path leads to in the folder that it starts from, none if it leads elsewhere. -/
def place? (p : PathName) : Option (List String) :=
  if p.root.isEmpty then placeFrom [] p.components else none

/-- The places that components lead through from a place, as far as they stay in the folder. -/
def placesFrom (place : List String) : List String → List (List String)
  | [] => [place]
  | c :: cs =>
    if c = ".." then
      if place.isEmpty then [place] else place :: placesFrom place.dropLast cs
    else place :: placesFrom (place ++ [c]) cs

/-- The places of the directories above a path, in the folder that it starts from. -/
def directories (p : PathName) : List (List String) :=
  if p.root.isEmpty then placesFrom [] p.parent.components else []

end PathName

end ServiceContract
