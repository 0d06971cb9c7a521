import ServiceContract.CommandLine.Run
import ServiceContract.Document.Yaml.Read

/-!
# The command

Reads the document that the command line names, and prints and writes what `CommandLine.run`
computes. YAML texts are read by `Yaml.read`, and standard output takes every text that has an
encoding.
-/

namespace ServiceContract.CommandLine

/-- The words that show how the command is used. -/
def usage : String :=
  "usage: apistub [-h] [-o OUTPUT] [-t python|kotlin] [--name NAME] [--package PACKAGE]\n" ++
    "               [--response-param] [--concrete] [-v] spec\n"

/-- The environment of the command. -/
def environment : Environment where
  readYaml := Yaml.read
  canPrint text := !Text.hasHalf text

/-- A text as it is shown where halves of pairs have no encoding. -/
def shown (s : String) : String :=
  String.ofList ((Text.codePoints s.toList).flatMap fun n =>
    if Text.isSurrogate n then Text.escapedCode n else [Char.ofNat n])

/-- The content that bytes are. -/
def contentOf (bytes : ByteArray) : String :=
  match String.fromUTF8? bytes with
  | some s => Text.ofPlain s
  | none => String.ofList (Text.ofCodePoint 0xDC80)

/-- The content of a file, if it can be read. -/
def readFile? (path : PathName) : IO (Option String) := do
  try
    return some (contentOf (← IO.FS.readBinFile (shown path.text)))
  catch _ => return none

/-- Makes a change. -/
def makeChange : Change → IO Unit
  | .directories path => IO.FS.createDirAll (shown path.parent.text)
  | .file path content => IO.FS.writeFile (shown path.text) (shown content)

/-- Does what an outcome says and gives the code of the command. -/
def perform (outcome : Outcome) : IO UInt32 := do
  let stderr ← IO.getStderr
  outcome.changes.forM makeChange
  match outcome with
  | .usage code =>
    if code = helpCode then IO.print usage else stderr.putStr usage
    return code.toUInt32
  | .fault fault _ =>
    stderr.putStr ("cannot go on: " ++ shown fault.message ++ "\n")
    return 1
  | .finished finish =>
    stderr.putStr (shown finish.stderr)
    IO.print (shown finish.stdout)
    return finish.code.toUInt32

end ServiceContract.CommandLine

open ServiceContract ServiceContract.CommandLine in
/-- Runs the command. -/
def main (words : List String) : IO UInt32 := do
  match Arguments.ofWords (words.map Text.ofPlain) with
  | .error code => perform (.usage code)
  | .ok a =>
    let content ← readFile? a.document
    perform (execute environment a fun path => if path = a.document then content else none)
