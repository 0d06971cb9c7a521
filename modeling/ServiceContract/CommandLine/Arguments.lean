import ServiceContract.Contract.Options
import ServiceContract.PathName
import ServiceContract.Text.Blank
import ServiceContract.Text.Digit

/-!
# Arguments

The command line has one positional argument, the document, and options. An option with a long name
may be shortened as far as it stays the only one; options with a letter may share a hyphen, and a
value may stand in the word of its option or in the next one. Behind `--` all words are positional.

## Main definitions

* `Flag`: the options.
* `Word`: what a word of the command line is.
* `Arguments`, `Arguments.ofWords`: what a command line asks for, or the code with which it ends.
-/

namespace ServiceContract.CommandLine

/-- The options. -/
inductive Flag where
  | help
  | output
  | target
  | name
  | packageName
  | responseParam
  | concrete
  | verbose
deriving DecidableEq, Inhabited

namespace Flag

/-- The options with a letter. -/
def ofLetter? : Char → Option Flag
  | 'h' => some .help
  | 'o' => some .output
  | 't' => some .target
  | 'v' => some .verbose
  | _ => none

/-- The long names. -/
def longNames : List (String × Flag) :=
  [("help", .help), ("output", .output), ("target", .target), ("name", .name),
    ("package", .packageName), ("response-param", .responseParam), ("concrete", .concrete),
    ("verbose", .verbose)]

/-- Whether an option has a value. -/
def takesValue : Flag → Bool
  | .output => true
  | .target => true
  | .name => true
  | .packageName => true
  | _ => false

end Flag

/-- What a word of the command line is. An option may have a value attached to it; an unknown option
is kept as such. -/
inductive Word where
  | positional (text : String)
  | separator
  | option (flag : Flag) (short : Bool) (attached : Option String)
  | unknown
deriving DecidableEq, Inhabited

/-- The code with which the command ends when it only shows its help. -/
def helpCode : Nat := 0

/-- The code with which the command ends when its arguments are wrong. -/
def usageCode : Nat := 2

/-! ### Words -/

/-- Whether a word is a negative number: a hyphen, digits, and perhaps a point with digits. -/
def isNegativeNumber (word : List Char) : Bool :=
  match Text.withoutLineEnd word with
  | '-' :: s =>
    match s.dropWhile Text.isDecimalDigit with
    | [] => !s.isEmpty
    | '.' :: ds => !ds.isEmpty && ds.all Text.isDecimalDigit
    | _ => false
  | _ => false

/-- The part in front of the first equals sign and the part behind it. -/
def cutAtEquals (s : List Char) : List Char × Option String :=
  match s.dropWhile (· != '=') with
  | [] => (s, none)
  | _ :: value => (s.takeWhile (· != '='), some (String.ofList value))

/-- The options whose long name starts in the given way. A full name means that option alone. -/
def longMatches (start : List Char) : List Flag :=
  match Flag.longNames.lookup (String.ofList start) with
  | some flag => [flag]
  | none => (Flag.longNames.filter fun n => start.isPrefixOf n.1.toList).map Prod.snd

/-- What a word with a hyphen in front is when it names no option. -/
def otherWord (s : List Char) : Word :=
  if isNegativeNumber s || s.contains ' ' then .positional (String.ofList s) else .unknown

/-- What a word in front of the separator is. -/
def Word.ofText (text : String) : Except Nat Word :=
  match text.toList with
  | '-' :: '-' :: body =>
    let (name, value) := cutAtEquals body
    match longMatches name with
    | [] => .ok (otherWord text.toList)
    | [flag] => .ok (.option flag false value)
    | _ => .error usageCode
  | '-' :: c :: rest =>
    match Flag.ofLetter? c with
    | none => .ok (otherWord text.toList)
    | some flag =>
      .ok (.option flag true
        (match rest with
          | [] => none
          | '=' :: value => some (String.ofList value)
          | rest => some (String.ofList rest)))
  | _ => .ok (.positional text)

/-- The words of a command line. -/
def wordsOf : List String → Except Nat (List Word)
  | [] => .ok []
  | "--" :: rest => .ok (.separator :: rest.map .positional)
  | text :: rest => do return (← Word.ofText text) :: (← wordsOf rest)

/-! ### Settings -/

/-- The value of an option, which may say nothing. -/
inductive Setting where
  | text (s : String)
  | nothing
deriving DecidableEq, Inhabited

/-- The setting that a value writes. -/
def Setting.ofText (s : String) : Setting :=
  if s = "--" then .nothing else .text s

/-- The text of a setting. -/
def Setting.text? : Setting → Option String
  | .text s => some s
  | .nothing => none

/-- What a command line has said so far; `surplus` is set by words that have no place. Without a
target the command line has said nothing as target. -/
structure Settings where
  document : Option String
  output : Option Setting
  target : Option Target
  name : Option String
  packageName : Option String
  responseParam : Bool
  concrete : Bool
  verbose : Bool
  surplus : Bool
deriving Inhabited

/-- The settings before the first word. -/
def Settings.initial : Settings where
  document := none
  output := none
  target := some .python
  name := none
  packageName := none
  responseParam := false
  concrete := false
  verbose := false
  surplus := false

/-- The settings after an option. -/
def Settings.apply (s : Settings) (flag : Flag) (value : Setting) : Except Nat Settings :=
  match flag with
  | .help => .error helpCode
  | .output => .ok { s with output := some value }
  | .target =>
    match value with
    | .nothing => .ok { s with target := none }
    | .text name =>
      match Target.find? name with
      | some target => .ok { s with target := some target }
      | none => .error usageCode
  | .name => .ok { s with name := value.text? }
  | .packageName => .ok { s with packageName := value.text? }
  | .responseParam => .ok { s with responseParam := true }
  | .concrete => .ok { s with concrete := true }
  | .verbose => .ok { s with verbose := true }

/-- The settings after several options. -/
def Settings.applyAll (s : Settings) : List (Flag × Setting) → Except Nat Settings
  | [] => .ok s
  | (flag, value) :: rest => do (← s.apply flag value).applyAll rest

/-- The options of a word whose attached text is given: further options with a letter, or the value
of the last one. The last option is left open if its value has to be the next word. -/
def cluster (flag : Flag) : List Char → Except Nat (List (Flag × Setting) × Option Flag)
  | [] => .ok (if flag.takesValue then ([], some flag) else ([(flag, .nothing)], none))
  | c :: cs =>
    if flag.takesValue then .ok ([(flag, .ofText (String.ofList (c :: cs)))], none)
    else
      match Flag.ofLetter? c with
      | none => .error usageCode
      | some next => do
        let (options, isOpen) ← cluster next cs
        return ((flag, .nothing) :: options, isOpen)

/-- The options of a word, and the option whose value has to be the next word. -/
def optionsOf (flag : Flag) (short : Bool) (attached : Option String) :
    Except Nat (List (Flag × Setting) × Option Flag) :=
  match attached with
  | none => cluster flag []
  | some value =>
    if flag.takesValue then .ok ([(flag, .ofText value)], none)
    else if short && !value.isEmpty then cluster flag value.toList
    else .error usageCode

/-- The settings after the words of a command line. -/
def Settings.ofWords (s : Settings) : List Word → Except Nat Settings
  | [] => .ok s
  | .separator :: .positional text :: rest =>
    if s.document.isNone then { s with document := some text }.ofWords rest
    else { s with surplus := true }.ofWords rest
  | .separator :: rest => { s with surplus := true }.ofWords rest
  | .positional text :: .separator :: rest =>
    if s.document.isNone then { s with document := some text }.ofWords rest
    else { s with surplus := true }.ofWords rest
  | .positional text :: rest =>
    if s.document.isNone then { s with document := some text }.ofWords rest
    else { s with surplus := true }.ofWords rest
  | .unknown :: rest => { s with surplus := true }.ofWords rest
  | .option flag short attached :: .positional text :: rest => do
    let (options, isOpen) ← optionsOf flag short attached
    match isOpen with
    | some last => (← s.applyAll (options ++ [(last, .text text)])).ofWords rest
    | none => (← s.applyAll options).ofWords (.positional text :: rest)
  | .option flag short attached :: rest => do
    let (options, isOpen) ← optionsOf flag short attached
    match isOpen with
    | some _ => throw usageCode
    | none => (← s.applyAll options).ofWords rest

/-! ### Arguments -/

/-- Where the text of a contract goes. -/
inductive Output where
  /-- It is printed. -/
  | printed
  | file (path : PathName)
  /-- It was to go to a file that is not named. -/
  | unnamed
deriving DecidableEq, Inhabited

/-- The output that a setting asks for. -/
def Output.ofSetting : Option Setting → Output
  | none => .printed
  | some (.text path) => .file (.ofText path)
  | some .nothing => .unnamed

/-- What a command line asks for. -/
structure Arguments where
  document : PathName
  output : Output
  target : Option Target
  includeResponse : Bool
  isInterface : Bool
  name : Option String
  packageName : Option String
  verbose : Bool
deriving Inhabited

namespace Arguments

/-- What a command line asks for, or the code with which the command ends at once. -/
def ofWords (words : List String) : Except Nat Arguments := do
  let s ← Settings.initial.ofWords (← wordsOf words)
  match s.document with
  | none => throw usageCode
  | some document =>
    if s.surplus then throw usageCode
    else
      return {
        document := .ofText document
        output := .ofSetting s.output
        target := s.target
        includeResponse := s.responseParam
        isInterface := !s.concrete
        name := s.name
        packageName := s.packageName
        verbose := s.verbose }

/-- The options of the contract. To say nothing as target is to name no target. -/
def options (a : Arguments) : Except Fault Options :=
  match a.target with
  | none => .error (.unknownTarget (.list []))
  | some target =>
    .ok { includeResponse := a.includeResponse, isInterface := a.isInterface, target
          name := a.name, packageName := a.packageName }

end Arguments

end ServiceContract.CommandLine
