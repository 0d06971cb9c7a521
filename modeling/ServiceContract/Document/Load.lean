import ServiceContract.Document.Json
import ServiceContract.Document.Yaml.Fault
import ServiceContract.PathName

/-!
# Loading documents

A file whose name ends in `.json`, in any letter case, is JSON; every other file is YAML, of which
the reader is given. Line ends are read alike on all systems.

## Main definitions

* `YamlReader`: readers of YAML texts.
* `normalLineEnds`: a text with one kind of line ends.
* `Document.load`: the document of a file.
-/

namespace ServiceContract

/-- A reader of YAML texts. -/
abbrev YamlReader := String → Except Yaml.ReadFault Document

/-- The text with every line end as a line feed. -/
def normalLineEnds (s : List Char) : List Char :=
  Text.replaceAll ['\r'] ['\n'] (Text.replaceAll ['\r', '\n'] ['\n'] s)

/-- The document of a file with the given name and content. A content without an encoding is of
bytes that are no text. -/
def Document.load (readYaml : YamlReader) (file : PathName) (content : String) :
    Except Fault Document :=
  let text := String.ofList (normalLineEnds content.toList)
  match Text.plain? text with
  | none => .error .malformed
  | some plain =>
    if file.isJson then do return .ofValue (← Json.read plain)
    else (readYaml text).mapError Yaml.ReadFault.toFault

end ServiceContract
