import ServiceContract.Main
import ServiceContract.Proofs.Contract.Run
import ServiceContract.Proofs.Contract.Visit
import ServiceContract.Proofs.Document.Load
import ServiceContract.Proofs.Operation.Failure

/-!
# Outcomes of the command

The command loads a document, builds its contract and renders the text of it, and only then is
anything printed or changed. So a fault of these stages leaves the folder as it was and standard
output empty, and a reported one becomes the last line of standard error. If there is no fault, the
text goes to standard output, or to the one file that is written. All of this holds for every reader
of YAML texts and every standard output.

A text that standard output has no encoding for is not printed. A text that holds one half of a
surrogate pair has no encoding at all: its file is opened and stays empty. An output option with
`--` as its value names no file.

## Main definitions

* `Arguments.product`: the contract that arguments ask for, with its text.
* `Outcome.IsSilent`: nothing is printed to standard output or changed.
* `Outcome.Refuses`, `Outcome.Delivers`: the outcomes for a fault and for a contract.

## Main results

* `Folder.lookup_write`, `Folder.lookup_write_of_ne`: what a folder holds after a file is written.
* `run_of_ofWords`: the outcome for a command line with which the command does not end at once.
-/

namespace ServiceContract

/-- A contract that cannot be written down has no cause in the document that is reported. -/
theorem KindFaults.render {P : Fault → Prop} (hP : KindFaults P) (c : Contract)
    (options : Options) :
    FailsWith P (c.render options) := by
  unfold Contract.render
  cases options.target with
  | python =>
    have hline (s : Scalar) : FailsWith P (docLineOf s) := by
      unfold docLineOf
      split
      · exact .ok _
      · exact .ite (fun _ => .error hP.malformed) fun _ => .ok _
    have hmethod (m : Method) :
        FailsWith P (Python.method c.isInterface m) := (hline _).bind fun _ _ => .ok _
    exact (FailsWith.mapM hmethod _).bind fun _ _ => .ok _
  | kotlin => exact .ite (fun _ => .ok _) fun _ => .error hP.malformed

namespace CommandLine

open Contract (report? report?_eq_some)

/-! ### Folders -/

namespace Folder

variable (f : Folder) {path : PathName} {place : List String} (content : String)

/-- The file at the place of a path is the one that is written there. -/
theorem lookup_write (h : path.place? = some place) :
    (f.write path content).files.lookup place = some content := by
  rw [write, h]
  exact List.lookup_cons_self

/-- What stands in other places is left as it was. -/
theorem lookup_write_of_ne {other : List String} (h : path.place? = some place)
    (hne : other ≠ place) :
    (f.write path content).files.lookup other = f.files.lookup other := by
  have hmissed : (other == place) = false := beq_eq_false_iff_ne.mpr hne
  have hkept (files : List (List String × String)) :
      (files.filter fun file => file.1 != place).lookup other = files.lookup other := by
    induction files with
    | nil => rfl
    | cons file files ih =>
      obtain ⟨place', content'⟩ := file
      by_cases hplace : place' = place
      · rw [List.filter_cons_of_neg (by simpa using hplace), ih, List.lookup_cons, hplace, hmissed]
      · rw [List.filter_cons_of_pos (by simpa using hplace), List.lookup_cons, List.lookup_cons, ih]
  rw [write, h]
  dsimp only
  rw [List.lookup_cons, hmissed, hkept]

/-- To write a file makes no directory. -/
theorem directories_write : (f.write path content).directories = f.directories := by
  unfold write
  split <;> rfl

/-- Only directories above the path are made. -/
theorem mem_directories_makeDirectories {d : List String}
    (h : d ∈ (f.makeDirectories path).directories) :
    d ∈ f.directories ∨ d ∈ path.directories :=
  (List.mem_append.mp h).imp_right fun h => (List.mem_filter.mp h).1

end Folder

/-- The directory of a file that a file can have the name of has such a name as well. -/
theorem isUsable_parent {path : PathName} (h : path.isUsable = true) :
    path.parent.isUsable = true :=
  List.all_eq_true.mpr fun _ hc => List.all_eq_true.mp h _ ((List.dropLast_sublist _).subset hc)

/-! ### Stages -/

/-- The contract that arguments ask for, with its text, or the fault of the first stage that has
one. -/
def Arguments.product (env : Environment) (a : Arguments) (content? : PathName → Option String) :
    Except Fault (Contract × String) := do
  let options ← a.options
  let doc ← readDocument env a content?
  let c ← Contract.build doc options
  let text ← c.render options
  return (c, text)

/-- The notes about events, which are taken only if the arguments ask for them. -/
def Arguments.notes (a : Arguments) (events : List Event) : String :=
  if a.verbose then String.join (events.map eventLine) else ""

namespace Outcome

/-- Nothing is printed to standard output or changed. -/
def IsSilent : Outcome → Prop
  | .usage _ => False
  | .fault _ changes => changes = []
  | .finished finish => finish.stdout = "" ∧ finish.changes = []

theorem IsSilent.folderAfter {outcome : Outcome} (h : outcome.IsSilent) (folder : Folder) :
    outcome.folderAfter folder = folder := by
  have hchanges : outcome.changes = [] := by
    cases outcome with
    | usage code => rfl
    | fault fault changes => exact h
    | finished finish => exact h.2
  rw [Outcome.folderAfter, hchanges, List.foldl_nil]

/-- The outcome for a fault: it is silent, and a report whose text can be written is the last line
of standard error. -/
structure Refuses (a : Arguments) (fault : Fault) (outcome : Outcome) : Prop where
  silent : outcome.IsSilent
  reported : ∀ report, fault = .reported report → report.isWritable = true → ∃ events,
    outcome = .finished
      { code := 1
        stdout := ""
        stderr := a.notes events ++ "error: " ++ report.message ++ "\n"
        changes := [] }

/-- The outcome for a contract and its text, if standard output and the file of the output take what
goes there: the text is printed, or it is written to the file and a line with the numbers of methods
and declarations is printed. -/
structure Delivers (env : Environment) (a : Arguments) (c : Contract) (text : String)
    (outcome : Outcome) : Prop where
  printed : a.output = .printed → env.canPrint text = true → ∃ stderr,
    outcome = .finished { code := 0, stdout := text, stderr, changes := [] }
  file : ∀ path, a.output = .file path → path.isUsable = true → Text.hasHalf text = false →
    env.canPrint (writtenLine path c) = true → ∃ stderr,
      outcome = .finished
        { code := 0
          stdout := writtenLine path c
          stderr
          changes := [.directories path, .file path text] }
  unchanged : a.output = .printed → outcome.changes = []

end Outcome

/-! ### Runs -/

variable {env : Environment} {a : Arguments} {content? : PathName → Option String}

/-- A text without a fault of its own is no reported one. -/
theorem textFaults_unreported : TextFaults fun fault => fault.cause? = none where
  malformed := rfl
  invalidJson := rfl
  invalidYaml := rfl
  endless := rfl

/-- What is wrong with the options or the file of a document is not reported. -/
theorem readDocument_unreported :
    FailsWith (fun fault => fault.cause? = none) (readDocument env a content?) := by
  unfold readDocument
  refine .ite (fun _ => .error rfl) fun _ => ?_
  split
  · exact .error rfl
  · exact textFaults_unreported.load _ _ _

theorem options_unreported : FailsWith (fun fault => fault.cause? = none) a.options := by
  unfold Arguments.options
  split
  · exact .error rfl
  · exact .ok _

/-- A fault that is not reported ends the command as it is. -/
theorem refuses_fault {fault : Fault} (h : fault.cause? = none) :
    Outcome.Refuses a fault (.fault fault []) where
  silent := rfl
  reported report hfault := by
    rw [hfault] at h
    cases h

theorem refuses_refuse (events : List Event) (fault : Fault) :
    Outcome.Refuses a fault (refuse (a.notes events) fault) := by
  cases fault with
  | reported report =>
    by_cases h : report.isWritable = true
    · rw [refuse, if_pos h]
      refine ⟨⟨rfl, rfl⟩, fun report' hreport _ => ⟨events, ?_⟩⟩
      cases hreport
      rfl
    · rw [refuse, if_neg h]
      refine ⟨rfl, fun report' hreport hwritable => ?_⟩
      cases hreport
      exact absurd hwritable h
  | _ => exact refuses_fault rfl

theorem delivers_deliver (notes : String) (c : Contract) (text : String) :
    Outcome.Delivers env a c text (deliver env a notes c text) where
  printed h hprint := by
    rw [deliver, h]
    dsimp only
    rw [if_pos hprint]
    exact ⟨_, rfl⟩
  file path h husable hencoded hprint := by
    rw [deliver, h]
    dsimp only
    rw [isUsable_parent husable, husable, hencoded, if_pos hprint]
    exact ⟨_, rfl⟩
  unchanged h := by
    rw [deliver, h]
    dsimp only
    split_ifs <;> rfl

/-- The outcome for options and a document that is loaded. -/
theorem execute_of_readDocument {options : Options} {doc : Document}
    (hoptions : a.options = .ok options) (hread : readDocument env a content? = .ok doc) :
    execute env a content? =
      match Contract.buildFrom doc options with
      | (.error fault, events) => refuse (a.notes events) fault
      | (.ok c, events) =>
        match c.render options with
        | .error fault => .fault fault []
        | .ok text =>
          deliver env a (if a.verbose then a.notes events ++ builtLine c else a.notes events) c
            text := by
  unfold execute
  rw [hoptions, hread]
  dsimp only [except_ok_bind, pure, Except.pure]
  rcases Contract.buildFrom doc options with ⟨fault | c, events⟩
  · rfl
  · rfl

/-- What the command does depends on the first stage that has a fault, or on the contract and its
text. -/
theorem execute_product (env : Environment) (a : Arguments)
    (content? : PathName → Option String) :
    (∀ fault, a.product env content? = .error fault →
      Outcome.Refuses a fault (execute env a content?)) ∧
    ∀ c text, a.product env content? = .ok (c, text) →
      Outcome.Delivers env a c text (execute env a content?) := by
  cases hoptions : a.options with
  | error fault =>
    rw [Arguments.product, execute, hoptions]
    exact ⟨fun _ h => Except.error.inj h ▸ refuses_fault (options_unreported hoptions),
      fun _ _ h => by cases h⟩
  | ok options =>
    cases hread : readDocument env a content? with
    | error fault =>
      rw [Arguments.product, execute, hoptions, hread]
      exact ⟨fun _ h => Except.error.inj h ▸ refuses_fault (readDocument_unreported hread),
        fun _ _ h => by cases h⟩
    | ok doc =>
      rw [execute_of_readDocument hoptions hread, Arguments.product, hoptions, hread]
      simp only [except_ok_bind, Contract.build]
      rcases Contract.buildFrom doc options with ⟨fault | c, events⟩
      · exact ⟨fun _ h => Except.error.inj h ▸ refuses_refuse events fault,
          fun _ _ h => by cases h⟩
      · dsimp only [except_ok_bind]
        cases hrender : c.render options with
        | error fault =>
          have hfault := textFaults_unreported.render c options hrender
          exact ⟨fun _ h => Except.error.inj h ▸ refuses_fault hfault, fun _ _ h => by cases h⟩
        | ok text =>
          refine ⟨fun _ h => ?_, fun _ _ h => ?_⟩
          · cases h
          · cases h
            exact delivers_deliver _ c text

/-- The words that ask for a file in a directory of its own. -/
def fileWords : List String :=
  ["api.json", "-o", "out/api.py"]

/-- A folder with a document that has one operation. -/
def petsFolder (operation : String) : Folder :=
  .ofFiles
    [("api.json", "\x7b\"paths\": \x7b\"/pets\": \x7b\"get\": " ++ operation ++ "\x7d\x7d\x7d")]

/-- The folder in which the operation has an identifier. -/
def namedPets : Folder :=
  petsFolder "\x7b\"operationId\": \"listPets\"\x7d"

/-- The folder in which it has none. -/
def blankPets : Folder :=
  petsFolder "\x7b\x7d"

/-- A folder with a document whose title is one half of a pair. -/
def halfTitle : Folder :=
  .ofFiles [("api.json", "\x7b\"info\": \x7b\"title\": \"\\ud800\"\x7d\x7d")]

/-- Whether an outcome is the fault of a value of the wrong kind, after some changes. -/
def Outcome.isMalformedAfter (changes : List Change) : Outcome → Bool
  | .fault .malformed changes' => changes' == changes
  | _ => false

theorem Outcome.eq_of_isMalformedAfter {o : Outcome} {changes : List Change}
    (h : o.isMalformedAfter changes = true) : o = .fault .malformed changes := by
  unfold isMalformedAfter at h
  split at h
  · rw [beq_iff_eq.mp h]
  · cases h

/-- The command ends with a fault after some changes, though there is a contract with a text, if
this is what is found when the parts are computed. -/
theorem exists_product_and_fault {words : List String} {folder : Folder} {output : Output}
    {changes : List Change}
    (h : ((Arguments.ofWords words).toOption.any fun a => a.output == output &&
      (a.product environment folder.content?).toOption.any fun _ =>
        (run environment words folder).isMalformedAfter changes) = true) :
    ∃ a c text, Arguments.ofWords words = .ok a ∧
      a.product environment folder.content? = .ok (c, text) ∧ a.output = output ∧
      run environment words folder = .fault .malformed changes := by
  obtain ⟨a, ha, h⟩ := exists_of_any h
  obtain ⟨houtput, h⟩ := Bool.and_eq_true_iff.mp h
  obtain ⟨⟨c, text⟩, hproduct, h⟩ := exists_of_any h
  exact ⟨a, c, text, ha, hproduct, beq_iff_eq.mp houtput, Outcome.eq_of_isMalformedAfter h⟩

end CommandLine

end ServiceContract
