import ServiceContract.Proofs.Operation.Fault
import ServiceContract.Proofs.Session.Growth

/-!
# What steps leave behind

A step that fails keeps what it has done up to the fault, so that the session after it is not the
one before it. Still it is in order: the references in progress are those from before, references
and inline schemas keep what they have got, and no declaration is taken back. A method is added
last, when nothing can fail any more, and an operation without an identifier is refused before
anything is done.

## Main definitions

* `Fault.cause?`: the cause of a reported fault.
* `AddsMethod`: the outcomes of a step that adds a method or fails.

## Main results

* `steps_grow`: sessions along resolutions, bindings and methods, whether they fail or not.
-/

namespace ServiceContract

/-- The cause of a reported fault. -/
def Fault.cause? : Fault → Option Cause
  | .reported report => some report.cause
  | _ => none

/-- What a step that adds a method gives: it adds the one that it gives; if it fails it adds none,
and if it fails for want of an identifier it changes nothing at all. -/
structure AddsMethod (s : Session) (out : Except Fault Method × Session) : Prop where
  added : ∀ {m}, out.1 = .ok m → out.2.methods = s.methods ++ [m]
  failed : ∀ {fault}, out.1 = .error fault → out.2.methods = s.methods
  unnamed : ∀ {fault}, out.1 = .error fault → fault.cause? = some .missingOperationId → out.2 = s

/-- The methods are the same. -/
def SameMethods (s t : Session) : Prop :=
  t.methods = s.methods

instance : IsPreorder Session SameMethods where
  refl _ := rfl
  trans _ _ _ h h' := Eq.trans h' h

open Build

variable {r : Resolver}

/-! ### Resolutions add no method -/

namespace Resolver

section Step

variable {resolve : Node → String → Build TypeExpr}
  (hf : ∀ n hint, Moves SameMethods (resolve n hint))
include hf

theorem declareType_sameMethods (schema : Node) (name : String) :
    Moves SameMethods (r.declareType resolve schema name) :=
  declareType_moves hf (fun _ _ => rfl) schema name

theorem resolveReference_sameMethods (ref : String) :
    Moves SameMethods (r.resolveReference resolve ref) := by
  refine resolveReference_moves (fun {ref schema s} _ _ _ => ⟨?_, fun _ => rfl⟩)
    (fun {ref _ s} _ _ _ _ h => ?_) ref
  · have hstep :=
      hf schema (Naming.pascal (referenceName ref)) { s with resolving := ref :: s.resolving }
    rw [whileResolving_apply]
    exact hstep
  · obtain ⟨name, taken, -, hname⟩ := reserveReference_apply ref s
    rw [hname] at h
    cases h
    exact declareType_sameMethods hf _ _ _

theorem resolveInline_sameMethods (schema : Node) (hint : String) :
    Moves SameMethods (r.resolveInline resolve schema hint) := by
  refine resolveInline_moves (fun {schema hint s} _ _ _ h => ?_) schema hint
  rw [reserveInline_apply] at h
  cases h
  exact declareType_sameMethods hf _ _ _

end Step

theorem resolve_sameMethods (schema : Node) (hint : String) :
    Moves SameMethods (r.resolve schema hint) := by
  have hwithin (fuel : Nat) (schema : Node) (hint : String) :
      Moves SameMethods (r.resolveWithin fuel schema hint) := by
    induction fuel generalizing schema hint with
    | zero => exact .fail _
    | succ fuel ih =>
      exact resolveStep_moves ih (resolveReference_sameMethods ih)
        (resolveInline_sameMethods ih) schema hint
  exact hwithin _ schema hint

end Resolver

/-! ### Methods come last -/

/-- A step adds the method that it gives, and none if it fails. -/
def Build.Appends (m : Build Method) : Prop :=
  ∀ s, (∀ {method}, (m s).1 = .ok method → (m s).2.methods = s.methods ++ [method]) ∧
    ∀ {fault}, (m s).1 = .error fault → (m s).2.methods = s.methods

/-- Steps that add no method may come first. -/
theorem Build.Appends.bind {α : Type} {m : Build α} {k : α → Build Method}
    (hm : Moves SameMethods m) (hk : ∀ a, Appends (k a)) : Appends (m >>= k) := by
  intro s
  have hmethods : (m s).2.methods = s.methods := hm s
  rw [bind_apply]
  rcases hrun : m s with ⟨fault | a, t⟩
  · rw [hrun] at hmethods
    refine ⟨fun h => ?_, fun _ => hmethods⟩
    cases h
  · rw [hrun] at hmethods
    have happends := hk a t
    rwa [hmethods] at happends

theorem namedMethod_appends (includeResponse : Bool) (path : Scalar) (pathItem : Node)
    (httpMethod : String) (operation : Node) (operationId : String) :
    Appends (namedMethod r includeResponse path pathItem httpMethod operation operationId) := by
  have hresolve (n : Node) (hint : String) : Moves SameMethods (r.resolve n hint) :=
    Resolver.resolve_sameMethods n hint
  have hnote (e : Event) : Moves SameMethods (note e) := fun _ => rfl
  refine .bind (buildResult_moves hresolve _ _) fun result => ?_
  refine .bind (buildBody_moves hresolve _ _) fun body => ?_
  refine .bind (bindParameters_moves hresolve hnote _ _ _) fun bound => ?_
  refine .bind ((noteRenamed_notes _ _).moves hnote) fun _ => ?_
  have hsummary : Moves SameMethods (liftM (operationSummary operation) : Build String) :=
    fun _ => rfl
  refine .bind hsummary fun summary => ?_
  -- From here on nothing fails.
  refine fun s => ⟨fun h => ?_, fun h => ?_⟩
  · cases h
    rfl
  · cases h

/-- A fault for want of an identifier is no fault of reading. -/
theorem readingFaults_cause_ne :
    ReadingFaults fun fault => fault.cause? ≠ some .missingOperationId where
  malformed := by simp [Fault.cause?]
  unsupported _ _ := by simp [Fault.cause?, Fault.unsupported, Fault.unlocated, Report.of]
  unresolvable _ _ := by simp [Fault.cause?, Fault.unresolvable, Fault.unlocated, Report.of]

/-- The making of a method adds the method, or none if it fails; without an identifier it changes
nothing. -/
theorem buildMethod_addsMethod (s : Session) (includeResponse : Bool) (path : Scalar)
    (pathItem : Node) (httpMethod : String) (operation : Node) :
    AddsMethod s (buildMethod r includeResponse path pathItem httpMethod operation s) := by
  have hrefused (fault : Fault) : AddsMethod s (.error fault, s) :=
    { added := fun h => nomatch h
      failed := fun _ => rfl
      unnamed := fun _ _ => rfl }
  rw [buildMethod_eq, bind_apply, lift_apply]
  cases operationName operation with
  | error fault => exact hrefused fault
  | ok id =>
    dsimp only
    split_ifs
    · exact hrefused _
    · obtain ⟨hadded, hfailed⟩ :=
        namedMethod_appends (r := r) includeResponse path pathItem httpMethod operation id s
      refine ⟨hadded, hfailed, fun hfault hcause => absurd hcause ?_⟩
      have hfails :=
        readingFaults_cause_ne.namedMethod_fails (by simp [Fault.cause?]) r includeResponse path
          pathItem httpMethod operation id s
      exact hfails hfault

/-! ### All steps -/

/-- Whether a resolution, the bindings or the method of an operation fail or not: the references in
progress are those from before, the declarations from before come first, references and inline
schemas keep their types and names, and names stay taken. A method is added exactly if it is made,
and an operation without an identifier changes nothing. -/
theorem steps_grow (r : Resolver) (s : Session) :
    (∀ schema hint, r.Grows s (r.resolve schema hint s).2) ∧
    (∀ pathItem operation owner, r.Grows s (bindParameters r pathItem operation owner s).2) ∧
    ∀ includeResponse path pathItem httpMethod operation,
      r.Grows s (buildMethod r includeResponse path pathItem httpMethod operation s).2 ∧
        AddsMethod s (buildMethod r includeResponse path pathItem httpMethod operation s) := by
  refine ⟨fun schema hint => ?_, fun pathItem operation owner => ?_, ?_⟩
  · exact Resolver.resolveWithin_grows r.stepBound schema hint s
  · exact bindParameters_grows pathItem operation owner s
  · intro includeResponse path pathItem httpMethod operation
    constructor
    · exact buildMethod_grows includeResponse path pathItem httpMethod operation s
    · exact buildMethod_addsMethod s includeResponse path pathItem httpMethod operation

/-- An operation whose identifier is blank. -/
def blankOperation : Node :=
  .map (.path [.key (.text "get")]) [(.text "operationId", .leaf .nowhere (.text " "))]

/-- An operation whose identifier is blank is refused, and the session is the one from before. -/
theorem steps_grow_blankOperation :
    ∃ fault s, buildMethod { doc := .ofValue .null, primitives := pythonPrimitives } false
      (.text "/pets")
        .empty "get" blankOperation .blank = (.error fault, s) ∧
      fault.cause? = some .missingOperationId ∧ s = .blank := by
  refine ⟨_, _, rfl, rfl, ?_⟩
  have hsteps := steps_grow { doc := .ofValue .null, primitives := pythonPrimitives } .blank
  exact (hsteps.2.2 false (.text "/pets") .empty "get" blankOperation).2.unnamed rfl rfl

end ServiceContract
