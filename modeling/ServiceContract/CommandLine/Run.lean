import ServiceContract.CommandLine.Arguments
import ServiceContract.CommandLine.Folder
import ServiceContract.Contract.Build
import ServiceContract.Document.Load
import ServiceContract.Emit.Render

/-!
# Running the command

The command reads a document, builds its contract and writes the text, either to standard output or
to a file. What it will print and change is computed first, as a whole. A fault before there is a
text leaves everything as it was. One that comes later may leave directories and a file behind: the
file is opened before its text is encoded, and the summary is printed when it is closed.

What the command does not do itself is given: the reader of YAML texts, and which texts standard
output has an encoding for. Standard error can show every text, and the system makes the directories
and files that it is asked for.

## Main definitions

* `Environment`: what is given.
* `Outcome`: what the command does.
* `execute`: the outcome for arguments, given the content of each file.
* `run`: the outcome for the words of a command line in a folder.
-/

namespace ServiceContract.CommandLine

/-- What the command is given. -/
structure Environment where
  readYaml : YamlReader
  /-- Whether standard output has an encoding for a text. -/
  canPrint : String → Bool

/-- What a finished command prints and changes, with its code. -/
structure Finish where
  code : Nat
  stdout : String
  stderr : String
  changes : List Change
deriving Inhabited

/-- What the command does: it ends at once because of its arguments, meets a fault that it does not
report, after some changes, or finishes. -/
inductive Outcome where
  | usage (code : Nat)
  | fault (fault : Fault) (changes : List Change)
  | finished (finish : Finish)
deriving Inhabited

/-! ### Notes -/

/-- The line for an event. -/
def eventLine : Event → String
  | .declared isEnumeration name =>
    "DEBUG apistub.type_resolver: Declared " ++
      (if isEnumeration then "EnumDeclaration " else "ClassDeclaration ") ++ name ++ "\n"
  | .skippedParameter location name =>
    "DEBUG apistub.schema_parser: Skipping " ++
      (if location.isEmpty then "unlocated" else location) ++ " parameter " ++ name.literal ++ "\n"
  | .renamedParameter name newName =>
    "DEBUG apistub.context_builder: Renamed parameter " ++ name ++ " to " ++ newName ++ "\n"
  | .builtMethod name httpMethod path =>
    "DEBUG apistub.context_builder: Built " ++ name ++ " for " ++
      String.ofList (Text.upper httpMethod.toList) ++ " " ++ path.plain ++ "\n"

/-- The numbers of methods and declared types. -/
def counts (c : Contract) : String :=
  toString c.methods.length ++ " methods, " ++ toString c.declarations.length ++ " types"

/-- The line for a contract that is built. -/
def builtLine (c : Contract) : String :=
  "INFO apistub.context_builder: Built " ++ c.name ++ ": " ++ counts c ++ "\n"

/-- The summary of a contract that is written to a file. -/
def writtenLine (path : PathName) (c : Contract) : String :=
  "Generated " ++ path.text ++ " (" ++ counts c ++ ")\n"

/-! ### The command -/

/-- The outcome of a command whose contract is built and rendered. The directories above a file are
made first, and it is empty when it is opened; a text without an encoding cannot be written to it
then. -/
def deliver (env : Environment) (a : Arguments) (notes : String) (c : Contract) (text : String) :
    Outcome :=
  match a.output with
  | .printed =>
    if env.canPrint text then
      .finished { code := 0, stdout := text, stderr := notes, changes := [] }
    else .fault .malformed []
  | .unnamed => .fault .malformed []
  | .file path =>
    if !path.parent.isUsable then .fault .malformed []
    else if !path.isUsable then .fault .malformed [.directories path]
    else if Text.hasHalf text then .fault .malformed [.directories path, .file path ""]
    else if env.canPrint (writtenLine path c) then
      .finished
        { code := 0
          stdout := writtenLine path c
          stderr := notes ++
            (if a.verbose then "INFO apistub.codegen: " ++ writtenLine path c else "")
          changes := [.directories path, .file path text] }
    else .fault .malformed [.directories path, .file path text]

/-- The document that the arguments name, given the content of each file. -/
def readDocument (env : Environment) (a : Arguments) (content? : PathName → Option String) :
    Except Fault Document :=
  if !a.document.isUsable then .error .malformed
  else
    match content? a.document with
    | none => .error .missingFile
    | some content => Document.load env.readYaml a.document content

/-- The outcome of a command that meets a fault before there is a text. -/
def refuse (notes : String) : Fault → Outcome
  | .reported report =>
    if report.isWritable then
      .finished
        { code := 1, stdout := "", stderr := notes ++ "error: " ++ report.message ++ "\n"
          changes := [] }
    else .fault .malformed []
  | fault => .fault fault []

/-- The outcome for arguments, given the content of each file. -/
def execute (env : Environment) (a : Arguments) (content? : PathName → Option String) : Outcome :=
  match (do return (← a.options, ← readDocument env a content?) :
      Except Fault (Options × Document)) with
  | .error fault => .fault fault []
  | .ok (options, doc) =>
    let (result, events) := Contract.buildFrom doc options
    let notes := if a.verbose then String.join (events.map eventLine) else ""
    match result with
    | .error fault => refuse notes fault
    | .ok c =>
      let notes := if a.verbose then notes ++ builtLine c else notes
      match c.render options with
      | .error fault => .fault fault []
      | .ok text => deliver env a notes c text

/-- The outcome for the words of a command line in a folder. -/
def run (env : Environment) (words : List String) (folder : Folder) : Outcome :=
  match Arguments.ofWords words with
  | .error code => .usage code
  | .ok a => execute env a folder.content?

/-- What an outcome changes, in order. -/
def Outcome.changes : Outcome → List Change
  | .usage _ => []
  | .fault _ changes => changes
  | .finished finish => finish.changes

/-- The folder after an outcome. -/
def Outcome.folderAfter (outcome : Outcome) (folder : Folder) : Folder :=
  outcome.changes.foldl Folder.change folder

end ServiceContract.CommandLine
