import ServiceContract.Proofs.Operation.Parallel
import ServiceContract.Proofs.Schema.Moves

/-!
# Growing sessions

A session only grows: references and inline schemas keep the types and names that they have got,
names stay taken, and declarations and methods are added behind the ones that are there. The
references in progress are the same before and after every step, also if it fails, and an alias in
progress gets no type while it is in progress.

## Main definitions

* `Origin`, `Session.Knows`: the references and inline schemas that a session has met.
* `Resolver.Grows`: how the session after a step is related to the one before it.
* `Resolver.Partial`: what a resolution does that may be broken off wherever it goes to another
  schema.
* `Resolver.Later`: the sessions that come after one, in the midst of steps too.

## Main results

* `Resolver.resolveWithin_grows`, `Resolver.Partial.grows`: sessions grow along resolutions, whole
  or broken off.
* `buildMethod_grows`, `bindParameters_grows`: sessions grow along methods and bindings.
* `Resolver.Later.moves`: what relates a session to all later ones.
-/

namespace ServiceContract

open Build

/-- What gets a type or a name in a session: a reference or an inline schema. -/
inductive Origin where
  | reference (ref : String)
  | inline (address : Address)

/-- The session has a type or a name for the origin. -/
def Session.Knows (s : Session) : Origin → Prop
  | .reference ref => ∃ type, s.references.lookup ref = some type
  | .inline a => ∃ name, s.inlines.lookup a = some name

namespace Resolver

variable {r : Resolver}

/-! ### Growth -/

variable (r) in
/-- How the session after a step is related to the one before it. -/
structure Grows (s t : Session) : Prop where
  references : ∀ {ref type}, s.references.lookup ref = some type →
    t.references.lookup ref = some type
  inlines : ∀ {a name}, s.inlines.lookup a = some name → t.inlines.lookup a = some name
  taken : ∀ {name}, name ∈ s.taken → name ∈ t.taken
  components : t.components = s.components
  resolving : t.resolving = s.resolving
  declarations : s.declarations <+: t.declarations
  methods : s.methods <+: t.methods
  /-- An alias in progress gets no type. -/
  pending : ∀ {ref schema}, ref ∈ s.resolving → r.target ref = .ok (schema, false) →
    s.references.lookup ref = none → t.references.lookup ref = none

instance : IsPreorder Session r.Grows where
  refl _ := ⟨id, id, id, rfl, rfl, List.prefix_rfl, List.prefix_rfl, fun _ _ h => h⟩
  trans _ _ _ h h' :=
    { references := fun hs => h'.references (h.references hs)
      inlines := fun hs => h'.inlines (h.inlines hs)
      taken := fun hs => h'.taken (h.taken hs)
      components := h'.components.trans h.components
      resolving := h'.resolving.trans h.resolving
      declarations := h.declarations.trans h'.declarations
      methods := h.methods.trans h'.methods
      pending := fun hr ht hs => h'.pending (h.resolving ▸ hr) ht (h.pending hr ht hs) }

theorem Grows.knows {s t : Session} {o : Origin} (h : r.Grows s t) (ho : s.Knows o) :
    t.Knows o := by
  cases o with
  | reference ref => exact ho.imp fun _ => h.references
  | inline a => exact ho.imp fun _ => h.inlines

theorem lookup_cons_of_ne {α β : Type} [DecidableEq α] {k k' : α} {v : β} {l : List (α × β)}
    (h : k ≠ k') : ((k', v) :: l).lookup k = l.lookup k := by
  rw [lookup_cons_ite, if_neg h]

theorem note_grows (e : Event) : Moves r.Grows (note e) := fun _ =>
  ⟨id, id, id, rfl, rfl, List.prefix_rfl, List.prefix_rfl, fun _ _ h => h⟩

theorem declare_grows (d : Declaration) : Moves r.Grows (declare d) := fun _ =>
  ⟨id, id, id, rfl, rfl, List.prefix_append _ _, List.prefix_rfl, fun _ _ h => h⟩

theorem addMethod_grows (m : Method) : Moves r.Grows (addMethod m) := fun _ =>
  ⟨id, id, id, rfl, rfl, List.prefix_rfl, List.prefix_append _ _, fun _ _ h => h⟩

/-- A reference that has no type may get one. -/
theorem grows_of_reference {s : Session} {ref : String} {type : TypeExpr} {taken : List String}
    (hs : s.references.lookup ref = none) (htaken : ∀ n ∈ s.taken, n ∈ taken)
    (hr : ref ∈ s.resolving → ∀ schema, r.target ref ≠ .ok (schema, false)) :
    r.Grows s { s with taken, references := (ref, type) :: s.references } where
  references {ref' type'} h := by
    have hne : ref' ≠ ref := by
      rintro rfl
      rw [hs] at h
      cases h
    rwa [lookup_cons_of_ne hne]
  inlines := id
  taken := htaken _
  components := rfl
  resolving := rfl
  declarations := List.prefix_rfl
  methods := List.prefix_rfl
  pending {ref' schema} hmem ht h := by
    have hne : ref' ≠ ref := by
      rintro rfl
      exact hr hmem schema ht
    rwa [lookup_cons_of_ne hne]

theorem reserveReference_grows {s t : Session} {ref name : String} {schema : Node}
    (hs : s.references.lookup ref = none) (ht : r.target ref = .ok (schema, true))
    (hname : reserveReference ref s = (.ok name, t)) : r.Grows s t := by
  obtain ⟨_, taken, htaken, hname'⟩ := reserveReference_apply ref s
  rw [hname'] at hname
  cases hname
  refine grows_of_reference hs htaken fun _ other hother => ?_
  rw [ht] at hother
  cases hother

theorem reserveInline_grows {s t : Session} {schema : Node} {hint name : String}
    (hs : s.inlines.lookup schema.address = none)
    (hname : reserveInline schema hint s = (.ok name, t)) : r.Grows s t := by
  rw [reserveInline_apply] at hname
  cases hname
  refine ⟨id, fun {a name} h => ?_, List.mem_cons_of_mem _, rfl, rfl, List.prefix_rfl,
    List.prefix_rfl, fun _ _ h => h⟩
  have hne : a ≠ schema.address := by
    rintro rfl
    rw [hs] at h
    cases h
  rwa [lookup_cons_of_ne hne]

/-! ### Resolution -/

section Step

variable {resolve : Node → String → Build TypeExpr} (hf : ∀ n hint, Moves r.Grows (resolve n hint))
include hf

/-- Sessions grow along a step with an alias in progress: the alias is taken off again. -/
theorem whileResolving_grows {s : Session} (ref : String) (n : Node) (hint : String) :
    r.Grows s (whileResolving ref (resolve n hint) s).2 := by
  have h := hf n hint { s with resolving := ref :: s.resolving }
  rw [whileResolving_apply]
  refine ⟨h.references, h.inlines, h.taken, h.components, ?_, h.declarations, h.methods, ?_⟩
  · exact (congrArg (List.erase · ref) h.resolving).trans (List.erase_cons_head _ _)
  · exact fun hmem => h.pending (List.mem_cons_of_mem _ hmem)

/-- After the step the alias, which had no type, may get one. -/
theorem remember_grows {s t : Session} {ref : String} {schema n : Node} {hint : String}
    {result : Except Fault TypeExpr} (hs : s.references.lookup ref = none)
    (ht : r.target ref = .ok (schema, false)) (hr : ref ∉ s.resolving)
    (hres : whileResolving ref (resolve n hint) s = (result, t)) (type : TypeExpr) :
    r.Grows t { t with references := (ref, type) :: t.references } := by
  have hgrows := whileResolving_grows hf (s := s) ref n hint
  have h := hf n hint { s with resolving := ref :: s.resolving }
  rw [hres] at hgrows
  rw [whileResolving_apply] at hres
  cases hres
  refine grows_of_reference (h.pending List.mem_cons_self ht hs) (fun _ hn => hn) fun hmem => ?_
  exact absurd (hgrows.resolving ▸ hmem) hr

/-- Sessions grow along a reference if they grow along the resolutions inside it. -/
theorem resolveReference_grows (ref : String) : Moves r.Grows (r.resolveReference resolve ref) :=
  resolveReference_moves
    (fun hs ht hr => ⟨whileResolving_grows hf _ _ _, fun hres => remember_grows hf hs ht hr hres _⟩)
    (fun hs ht _ _ hname =>
      trans_of r.Grows (reserveReference_grows hs ht hname)
        (declareType_moves hf declare_grows _ _ _)) ref

theorem resolveInline_grows (schema : Node) (hint : String) :
    Moves r.Grows (r.resolveInline resolve schema hint) :=
  resolveInline_moves (fun hs _ _ hname =>
    trans_of r.Grows (reserveInline_grows hs hname) (declareType_moves hf declare_grows _ _ _))
      schema hint

/-- Sessions grow along one step of resolution if they grow along the resolutions inside it. -/
theorem resolveStep_grows (schema : Node) (hint : String) :
    Moves r.Grows (r.resolveStep resolve schema hint) :=
  resolveStep_moves hf (resolveReference_grows hf) (resolveInline_grows hf) schema hint

end Step

theorem resolveWithin_grows (fuel : Nat) (schema : Node) (hint : String) :
    Moves r.Grows (r.resolveWithin fuel schema hint) := by
  induction fuel generalizing schema hint with
  | zero => exact .fail _
  | succ fuel ih => exact resolveStep_grows ih schema hint

/-! ### Resolutions that are broken off -/

variable (r) in
/-- What a resolution with at most `fuel` steps inside one another gives that may be broken off
wherever it goes to another schema. The session that it leaves is the one in which the call that is
broken off would have begun, but for the references in progress. -/
inductive Partial : Nat → Node → String → Session → Except Fault TypeExpr × Session → Prop
  | off (fuel : Nat) (schema : Node) (hint : String) (s : Session) (fault : Fault) :
    Partial fuel schema hint s (.error fault, s)
  | step (fuel : Nat) (schema : Node) (hint : String) (s : Session)
    (resolve : Node → String → Build TypeExpr)
    (h : ∀ n hint' t, Partial fuel n hint' t (resolve n hint' t)) :
    Partial (fuel + 1) schema hint s (r.resolveStep resolve schema hint s)

/-- A resolution that is not broken off. -/
theorem Partial.resolveWithin (fuel : Nat) (schema : Node) (hint : String) (s : Session) :
    r.Partial fuel schema hint s (r.resolveWithin fuel schema hint s) := by
  induction fuel generalizing schema hint s with
  | zero => exact .off 0 schema hint s _
  | succ fuel ih => exact .step fuel schema hint s _ ih

theorem Partial.grows {fuel : Nat} {schema : Node} {hint : String} {s : Session}
    {out : Except Fault TypeExpr × Session} (h : r.Partial fuel schema hint s out) :
    r.Grows s out.2 := by
  induction h with
  | off fuel schema hint s fault => exact refl_of r.Grows s
  | step fuel schema hint s resolve _ ih => exact resolveStep_grows ih schema hint s

end Resolver

/-! ### Methods -/

variable {r : Resolver}

theorem bindParameters_grows (pathItem operation : Node) (owner : String) :
    Moves r.Grows (bindParameters r pathItem operation owner) :=
  bindParameters_moves (Resolver.resolveWithin_grows _) Resolver.note_grows pathItem operation owner

theorem buildMethod_grows (includeResponse : Bool) (path : Scalar) (pathItem : Node)
    (httpMethod : String) (operation : Node) :
    Moves r.Grows (buildMethod r includeResponse path pathItem httpMethod operation) :=
  buildMethod_moves (Resolver.resolveWithin_grows _) Resolver.note_grows Resolver.addMethod_grows
    includeResponse path pathItem httpMethod operation

/-! ### Later sessions -/

namespace Resolver

variable (r) in
/-- The sessions that come after `s` by any steps, whether they fail or not, those in the midst of
steps included: there a resolution is broken off, and other references are in progress. -/
inductive Later (s : Session) : Session → Prop
  | refl : Later s s
  | resolved {t : Session} {fuel : Nat} {schema : Node} {hint : String}
    {out : Except Fault TypeExpr × Session} (h : Later s t) (hle : fuel ≤ r.stepBound)
    (hp : r.Partial fuel schema hint t out) : Later s out.2
  | bound {t : Session} (pathItem operation : Node) (owner : String) (h : Later s t) :
    Later s (bindParameters r pathItem operation owner t).2
  | built {t : Session} (includeResponse : Bool) (path : Scalar) (pathItem : Node)
    (httpMethod : String) (operation : Node) (h : Later s t) :
    Later s (buildMethod r includeResponse path pathItem httpMethod operation t).2
  | aside {t : Session} (resolving : List String) (events : List Event) (h : Later s t) :
    Later s { t with resolving, events }

theorem Later.resolve {s t : Session} (h : r.Later s t) (schema : Node) (hint : String) :
    r.Later s (r.resolve schema hint t).2 :=
  .resolved h (Nat.le_refl _) (.resolveWithin r.stepBound schema hint t)

/-- A later session is related to the one at the beginning by every relation that resolutions,
events and methods keep to. -/
theorem Later.moves {R : Session → Session → Prop} [IsPreorder Session R] {s t : Session}
    (h : r.Later s t)
    (hp : ∀ {fuel schema hint s out}, fuel ≤ r.stepBound →
      r.Partial fuel schema hint s out → R s out.2)
    (hn : ∀ e, Moves R (note e)) (hm : ∀ m, Moves R (addMethod m))
    (haside : ∀ t resolving events, R t { t with resolving, events }) : R s t := by
  have hf (n : Node) (hint : String) : Moves R (r.resolve n hint) :=
    fun s => hp (Nat.le_refl _) (.resolveWithin r.stepBound n hint s)
  induction h with
  | refl => exact refl_of R s
  | resolved _ hle hpartial ih => exact trans_of R ih (hp hle hpartial)
  | bound pathItem operation owner _ ih =>
    exact trans_of R ih (bindParameters_moves hf hn pathItem operation owner _)
  | built includeResponse path pathItem httpMethod operation _ ih =>
    exact trans_of R ih
      (buildMethod_moves hf hn hm includeResponse path pathItem httpMethod operation _)
  | aside resolving events _ ih => exact trans_of R ih (haside _ resolving events)

end Resolver

end ServiceContract
