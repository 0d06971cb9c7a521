import ServiceContract.PathName

/-!
# Folders

A folder with files and directories, as the command finds it and leaves it. A path leads through
directories: those that are made as such, and those that are there because files are in them. The
content of a file is a text; bytes that encode no character stand in it as halves of surrogate
pairs.

## Main definitions

* `Folder`, `Folder.ofFiles`.
* `Folder.content?`: the content of the file that a path leads to.
* `Change`, `Folder.change`: the changes of a folder, and the folder after one of them.
* `Folder.filesBeside`: the files that another folder does not have.
-/

namespace ServiceContract.CommandLine

/-- The files of a folder with their contents and the directories that are made in it, by the
components of their paths. -/
structure Folder where
  files : List (List String × String)
  directories : List (List String)
deriving Inhabited

/-- A change of a folder. -/
inductive Change where
  /-- The directories above a path are made, where there are none. -/
  | directories (path : PathName)
  /-- A file gets a content, whether there was one before or not. -/
  | file (path : PathName) (content : String)
deriving DecidableEq, Inhabited

namespace Folder

/-- Whether a directory is there. -/
def isDirectory (f : Folder) (place : List String) : Bool :=
  place.isEmpty || f.directories.contains place ||
    f.files.any fun file => place.isPrefixOf file.1 && decide (place.length < file.1.length)

/-- The place that components lead to from a directory, through directories that are there. -/
def walk (f : Folder) (place : List String) : List String → Option (List String)
  | [] => some place
  | c :: cs =>
    if c = ".." then
      if place.isEmpty then none else f.walk place.dropLast cs
    else if cs.isEmpty || f.isDirectory (place ++ [c]) then f.walk (place ++ [c]) cs
    else none

/-- The content of the file that a path leads to. -/
def content? (f : Folder) (p : PathName) : Option String :=
  if p.root.isEmpty then (f.walk [] p.components).bind fun place => f.files.lookup place
  else none

/-- The folder after the directories above a path are made. -/
def makeDirectories (f : Folder) (p : PathName) : Folder :=
  { f with directories := f.directories ++ p.directories.filter fun place => !f.isDirectory place }

/-- The folder after a file is written. What is written elsewhere does not change it. -/
def write (f : Folder) (p : PathName) (content : String) : Folder :=
  match p.place? with
  | none => f
  | some place =>
    { f with files := (place, content) :: f.files.filter fun file => file.1 != place }

/-- The folder after a change. -/
def change (f : Folder) : Change → Folder
  | .directories path => f.makeDirectories path
  | .file path content => f.write path content

/-- A folder with the given files, by the texts of their paths. -/
def ofFiles (files : List (String × String)) : Folder :=
  files.foldl (fun f file => f.write (.ofText file.1) file.2) { files := [], directories := [] }

/-- The files that another folder does not have, by the texts of their paths. -/
def filesBeside (f g : Folder) : List (String × String) :=
  (f.files.filter fun file => (g.files.lookup file.1).isNone).map fun file =>
    ("/".intercalate file.1, file.2)

end Folder

end ServiceContract.CommandLine
