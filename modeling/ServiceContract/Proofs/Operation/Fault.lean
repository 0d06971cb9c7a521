import ServiceContract.Proofs.Operation.Parallel
import ServiceContract.Proofs.Schema.Fault

/-!
# Faults of operations

An operation without an identifier is one fault of its own, which nothing else gives. Once an
operation has an identifier, its method is made from what is read and resolved, with their faults.

## Main definitions

* `namedMethod`: the making of the method of an operation that has an identifier.

## Main results

* `buildMethod_eq`: the making of a method begins with the identifier.
* `ReadingFaults.bindParameters_fails`, `ReadingFaults.namedMethod_fails`: the faults of bindings
  and methods.
-/

namespace ServiceContract

namespace ReadingFaults

variable {P : Fault → Prop} (hP : ReadingFaults P)
include hP

/-! ### Contents -/

/-- The statuses are read with faults of reading, and so are the responses that they lead to. -/
theorem statuses (responses : Node) : FailsWith P (ServiceContract.statuses responses) ∧
    ∀ es, ServiceContract.statuses responses = .ok es → ∀ e ∈ es, FailsWith P e.2 := by
  have htext (status : Value) (response : Except Fault Node) :
      FailsWith P (statusText status response) :=
    (hP.plainText status).bind fun _ _ => .ok _
  have hresponse {status : Value} {response : Except Fault Node} {e : String × Except Fault Node}
      (h : statusText status response = .ok e) : e.2 = response := by
    obtain ⟨text, -, h⟩ := except_bind_eq_ok.mp h
    cases h
    rfl
  have hat (items : List Node) (status : Node) : FailsWith P (responseAt items status) := by
    unfold responseAt
    split
    · split
      · exact .ok _
      · exact .error hP.malformed
    · exact .error hP.malformed
  unfold ServiceContract.statuses
  split
  · refine ⟨(hP.entries _).bind fun es _ => .mapM (fun _ => htext _ _) es, fun es hes e he => ?_⟩
    obtain ⟨entries, -, hes⟩ := except_bind_eq_ok.mp hes
    obtain ⟨entry, -, h⟩ := mem_of_mapM_eq_ok hes he
    exact hresponse h ▸ .ok _
  · refine ⟨(hP.items _).bind fun ns _ => .mapM (fun _ => htext _ _) ns, fun es hes e he => ?_⟩
    obtain ⟨items, -, hes⟩ := except_bind_eq_ok.mp hes
    obtain ⟨item, -, h⟩ := mem_of_mapM_eq_ok hes he
    exact hresponse h ▸ hat _ _
  · refine ⟨(hP.items _).bind fun ns _ => .mapM (fun _ => htext _ _) ns, fun es hes e he => ?_⟩
    obtain ⟨items, -, hes⟩ := except_bind_eq_ok.mp hes
    obtain ⟨item, -, h⟩ := mem_of_mapM_eq_ok hes he
    exact hresponse h ▸ .error hP.malformed

theorem firstMedia (content : Option Node) : FailsWith P (ServiceContract.firstMedia content) := by
  unfold ServiceContract.firstMedia
  split
  · exact .ok _
  · refine (hP.entriesIfAny _).bind fun es _ => ?_
    split
    · exact .ok _
    · exact .ok _

theorem operationSummary (operation : Node) :
    FailsWith P (ServiceContract.operationSummary operation) :=
  (hP.get operation _).bind fun summary _ =>
    .ite (fun _ => hP.trimmedText summary) fun _ => (hP.get operation _).bind fun n _ =>
      hP.trimmedText n

/-! ### Parameters -/

theorem parameterName (parameter : Node) : FailsWith P (ServiceContract.parameterName parameter) :=
  (hP.get? parameter _).bind fun _ _ => .ok _

theorem parameterKey (parameter : Node) : FailsWith P (ServiceContract.parameterKey parameter) := by
  have hlocation : FailsWith P (parameterLocation parameter) := by
    refine (hP.get? parameter _).bind fun location _ => ?_
    split
    · exact .ok _
    · exact (hP.plainText _).bind fun _ _ => .ok _
  exact (hP.parameterName parameter).bind fun name _ => hlocation.bind fun _ _ =>
    (hP.asScalar name).bind fun _ _ => .ok _

variable (hendless : P .endless)
include hendless

theorem successContent (doc : Document) (operation : Node) :
    FailsWith P (ServiceContract.successContent doc operation) := by
  refine (hP.get operation _).bind fun responses _ => .ite (fun _ => .ok _) fun _ => ?_
  obtain ⟨hstatuses, hresponses⟩ := hP.statuses responses
  refine hstatuses.bind fun es hes => ?_
  split
  · exact .ok _
  · rename_i status response hleast
    have hmem := (List.mem_filter.mp (mem_of_leastStatus hleast)).1
    refine (hresponses es hes _ hmem).bind fun stated _ =>
      (hP.follow hendless doc _).bind fun target _ => ?_
    exact (hP.get target _).bind fun _ _ => .ok _

theorem requestBody (doc : Document) (operation : Node) :
    FailsWith P (ServiceContract.requestBody doc operation) := by
  refine (hP.get operation _).bind fun body _ => .ite (fun _ => .ok _) fun _ => ?_
  refine (hP.follow hendless doc body).bind fun target _ =>
    (hP.get target _).bind fun content _ => ?_
  refine (hP.firstMedia _).bind fun media _ => ?_
  split
  · exact .ok _
  · refine (hP.get _ _).bind fun schema _ => .ite (fun _ => .ok _) fun _ => ?_
    exact (hP.get target _).bind fun _ _ => .ok _

theorem collectKeyedParameters (doc : Document) (pathItem operation : Node) :
    FailsWith P (ServiceContract.collectKeyedParameters doc pathItem operation) := by
  have hmerge (merged : List (ParameterKey × Node)) (entries : List Node) :
      FailsWith P (mergeParameters doc merged entries) := by
    induction entries generalizing merged with
    | nil => exact .ok _
    | cons entry entries ih =>
      refine (hP.follow hendless doc entry).bind fun parameter _ => ?_
      exact (hP.parameterKey parameter).bind fun _ _ => ih _
  refine (hP.get pathItem _).bind fun shared _ => (hP.itemsIfAny shared).bind fun _ _ => ?_
  exact (hP.get operation _).bind fun own _ => (hP.itemsIfAny own).bind fun _ _ => hmerge _ _

end ReadingFaults

/-! ### Methods -/

open Build

theorem Build.Notes.fails {P : Fault → Prop} {m : Build Unit} (h : Notes m) : Fails P m := by
  induction h with
  | none => exact .pure _
  | note e _ ih => exact .bind (.modify _) fun _ => ih

/-- The making of the method of an operation with the given identifier. -/
def namedMethod (r : Resolver) (includeResponse : Bool) (path : Scalar) (pathItem : Node)
    (httpMethod : String) (operation : Node) (operationId : String) : Build Method := do
  let owner := Naming.pascal operationId
  let (produces, returnType) ← buildResult r operation owner
  let (consumes, body) ← buildBody r operation owner
  let bound ← bindParameters r pathItem operation owner
  let handle := if includeResponse then [responseBinding] else []
  let renamed := renameBindings ((body ++ handle).map Binding.name) bound
  noteRenamed bound renamed
  let summary ← operationSummary operation
  let method : Method :=
    { name := Naming.camel operationId
      returnType
      parameters := body ++ renamed ++ handle
      routing := { httpMethod, path, produces, consumes }
      summary }
  Build.addMethod method
  Build.note (.builtMethod method.name httpMethod path)
  return method

/-- The making of a method begins with the identifier of the operation. -/
theorem buildMethod_eq (r : Resolver) (includeResponse : Bool) (path : Scalar) (pathItem : Node)
    (httpMethod : String) (operation : Node) :
    buildMethod r includeResponse path pathItem httpMethod operation =
      (do
        let operationId ← operationName operation
        if operationId.isEmpty then
          Build.fail ((Fault.unlocated .missingOperationId).locate httpMethod path .null)
        else namedMethod r includeResponse path pathItem httpMethod operation operationId :
          Build Method) := rfl

namespace ReadingFaults

variable {P : Fault → Prop} (hP : ReadingFaults P)
include hP

theorem noteSkipped_fails (parameters : List (String × Node)) :
    Fails P (noteSkipped parameters) := by
  induction parameters with
  | nil => exact .pure _
  | cons p parameters ih =>
    obtain ⟨location, parameter⟩ := p
    rw [noteSkipped]
    split_ifs
    · exact ih
    · exact .lift_bind (hP.get _ _) fun _ => .bind (.modify _) fun _ => ih

variable (hendless : P .endless) (r : Resolver)
include hendless

/-- A default that is a list may hold itself, and has no end then. -/
theorem defaultText (v : Value) : FailsWith P (ServiceContract.defaultText v) := by
  induction v using ServiceContract.defaultText.induct
    (motive_2 := fun vs => FailsWith P (ServiceContract.defaultTexts vs)) with
  | case1 => exact .ok _
  | case2 b => exact .ok _
  | case3 items ih =>
    rw [ServiceContract.defaultText]
    exact ih.bind fun _ _ => .ok _
  | case4 => exact .error hendless
  | case5 v =>
    rw [ServiceContract.defaultText]
    · exact (hP.plainText v).bind fun _ _ => .ok _
    all_goals assumption
  | case6 => exact .ok _
  | case7 v ih =>
    rw [ServiceContract.defaultTexts]
    exact ih.bind fun _ _ => .ok _
  | case8 v vs hne ih ihs =>
    rw [ServiceContract.defaultTexts]
    · exact ih.bind fun _ _ => ihs.bind fun _ _ => .ok _
    · exact hne

theorem parameterDefault (location : Location) (schema : Node) :
    FailsWith P (ServiceContract.parameterDefault location schema) :=
  .ite (fun _ => .ok _) fun _ => (hP.get _ _).bind fun _ _ =>
    (hP.defaultText hendless _).bind fun _ _ => .ok _

theorem bindParameter_fails (owner : String) (location : Location) (parameter : Node) :
    Fails P (bindParameter r owner location parameter) := by
  refine .lift_bind (hP.parameterName _) fun name => .lift_bind (hP.asText _) fun wireName => ?_
  refine .lift_bind (hP.get _ _) fun schema =>
    .bind (hP.resolve_fails hendless r _ _) fun type => ?_
  refine .lift_bind (hP.get _ _) fun required => ?_
  exact .lift_bind (hP.parameterDefault hendless location _) fun default => .pure _

theorem bindAll_fails (owner : String) (location : Location) (parameters : List Node) :
    Fails P (bindAll r owner location parameters) := by
  induction parameters with
  | nil => exact .pure _
  | cons p parameters ih =>
    exact .bind (hP.bindParameter_fails hendless r owner location p) fun _ =>
      .bind ih fun _ => .pure _

theorem bindLocations_fails (owner : String) (parameters : List (String × Node))
    (locations : List Location) : Fails P (bindLocations r owner parameters locations) := by
  induction locations with
  | nil => exact .pure _
  | cons location locations ih =>
    exact .bind (hP.bindAll_fails hendless r owner location _) fun _ => .bind ih fun _ => .pure _

/-- The faults of bindings. -/
theorem bindParameters_fails (pathItem operation : Node) (owner : String) :
    Fails P (bindParameters r pathItem operation owner) :=
  .lift_bind (hP.collectKeyedParameters hendless _ _ _) fun _ =>
    .bind (hP.noteSkipped_fails _) fun _ => hP.bindLocations_fails hendless r owner _ _

theorem buildResult_fails (operation : Node) (owner : String) :
    Fails P (buildResult r operation owner) := by
  refine .lift_bind (hP.successContent hendless _ _) fun _ =>
    .lift_bind (hP.firstMedia _) fun media => ?_
  rcases media with _ | ⟨mediaType, media⟩
  · exact .pure _
  · exact .lift_bind (hP.get _ _) fun _ => .bind (hP.resolve_fails hendless r _ _) fun _ => .pure _

theorem buildBody_fails (operation : Node) (owner : String) :
    Fails P (buildBody r operation owner) := by
  refine .lift_bind (hP.requestBody hendless _ _) fun body => ?_
  rcases body with _ | ⟨mediaType, schema, required⟩
  · exact .pure _
  · exact .bind (hP.resolve_fails hendless r _ _) fun _ => .pure _

/-- The faults of a method of an operation that has an identifier. -/
theorem namedMethod_fails (includeResponse : Bool) (path : Scalar) (pathItem : Node)
    (httpMethod : String) (operation : Node) (operationId : String) :
    Fails P (namedMethod r includeResponse path pathItem httpMethod operation operationId) := by
  refine .bind (hP.buildResult_fails hendless r _ _) fun _ => ?_
  refine .bind (hP.buildBody_fails hendless r _ _) fun _ => ?_
  refine .bind (hP.bindParameters_fails hendless r _ _ _) fun _ => ?_
  refine .bind (noteRenamed_notes _ _).fails fun _ => .lift_bind (hP.operationSummary _) fun _ => ?_
  exact .bind (.modify _) fun _ => .bind (.modify _) fun _ => .pure _

end ReadingFaults

end ServiceContract
