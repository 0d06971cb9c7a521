import ServiceContract.Proofs.Document.WellFormed
import ServiceContract.Proofs.Schema.Alias
import ServiceContract.Proofs.Schema.Complete
import ServiceContract.Proofs.Schema.Contested
import ServiceContract.Proofs.Schema.Shared

/-!
# Named schemas and inline schemas

A schema gets its type in two ways: through a reference to it, under the name of the reference, or
where it is used inline. Both are compared here, each from the start.

* An alias has the type that its target has inline, unless the target leads back to the alias.
* A schema that declares a type under a name declares one inline as well, unless it is contested. If
  it can be declared in one of the two ways, nothing can go wrong in the other one but that a
  resolution does not come to an end.
* A contested schema declares a type under a name only: inline it is a list, or it has no type.

## Main definitions

* `TypeExpr.isDeclared`: the types that are declared.
* `Resolver.inlineType`, `Resolver.referenceType`: the types in the two ways.

## Main results

* `Resolver.referenceType_of_alias`: aliases.
* `Resolver.isCircular_of_inlineType`, `Resolver.isCircular_of_referenceType`: schemas that declare
  a type in either way.
* `Resolver.reference_as_inline`: how the two types are related.
-/

namespace ServiceContract

open Build Session

/-- Whether the type is a declared one. -/
def TypeExpr.isDeclared : TypeExpr → Bool
  | .declared _ => true
  | _ => false

namespace Resolver

/-- The type that the target of a reference has where it is used inline, under the name of the
reference as hint. -/
def inlineType (r : Resolver) (s : Session) (ref : String) (schema : Node) :
    Except Fault TypeExpr :=
  (r.resolve schema (Naming.pascal (referenceName ref)) s).1

/-- The type that a reference has under a hint. -/
def referenceType (r : Resolver) (s : Session) (ref hint : String) : Except Fault TypeExpr :=
  (r.resolve (.ofReference ref) hint s).1

variable {r : Resolver} {start s t : Session} {schema : Node} {ref hint : String} {type : TypeExpr}
  {declares : Bool} {fault : Fault}

/-! ### One step of either way -/

/-- A reference that has a type is resolved as one. -/
theorem resolveReference_of_referenceType (h : r.referenceType s ref hint = .ok type) :
    ∃ fuel t, r.resolveReference (r.resolveWithin fuel) ref s = (.ok type, t) := by
  obtain ⟨fuel, hfuel⟩ := r.stepBound_eq
  rw [referenceType, resolve_ofReference hfuel] at h
  exact ⟨fuel, _, Prod.ext h rfl⟩

/-- A schema that has a type inline has a form, which the type is made from. -/
theorem form_of_inlineType (h : r.inlineType s ref schema = .ok type) :
    ∃ label form fuel t, r.form schema label = .ok form ∧
      r.resolveForm (r.resolveWithin fuel) schema (Naming.pascal (referenceName ref)) form s =
        (.ok type, t) := by
  obtain ⟨fuel, hfuel⟩ := r.stepBound_eq
  have hrun : r.resolve schema (Naming.pascal (referenceName ref)) s =
      (.ok type, (r.resolve schema (Naming.pascal (referenceName ref)) s).2) := Prod.ext h rfl
  rw [resolve, hfuel, resolveWithin, resolveStep_eq] at hrun
  obtain ⟨form, hform, hrun⟩ := lift_bind_eq_ok.mp hrun
  exact ⟨_, form, fuel, _, hform, hrun⟩

/-- An inline schema that declares a type has a declared type. -/
theorem isDeclared_of_resolveInline {resolve : Node → String → Build TypeExpr}
    (h : r.resolveInline resolve schema hint s = (.ok type, t)) : type.isDeclared = true := by
  cases inlineOutcome h with
  | cached => rfl
  | new => rfl

/-- Inline, a schema that is not contested has a declared type. -/
theorem isDeclared_inlineType (ht : r.target ref = .ok (schema, true))
    (hcontested : ¬ schema.Contested) (h : r.inlineType s ref schema = .ok type) :
    type.isDeclared = true := by
  obtain ⟨label, form, fuel, t, hform, hrun⟩ := form_of_inlineType h
  cases (form_of_named ht hcontested label).symm.trans hform
  exact isDeclared_of_resolveInline hrun

/-- Inline, a contested schema is a list, if it has a type. -/
theorem inlineType_of_contested (ht : r.target ref = .ok (schema, true))
    (hcontested : schema.Contested) (h : r.inlineType s ref schema = .ok type) :
    ∃ item, type = .list item := by
  obtain ⟨label, form, fuel, t, hform, hrun⟩ := form_of_inlineType h
  obtain ⟨items, rfl⟩ := eq_list_of_contested ht hcontested hform
  obtain ⟨item, s₁, -, hrun⟩ := bind_eq_ok.mp hrun
  obtain ⟨rfl, -⟩ := pure_eq_ok.mp hrun
  exact ⟨item, rfl⟩

/-- Inline, a contested schema with `not` is not supported. -/
theorem inlineType_of_not (ht : r.target ref = .ok (schema, true)) (hcontested : schema.Contested)
    (hnot : schema.has "not" = .ok true) :
    ∃ label, r.inlineType s ref schema = .error (.unsupported label "'not' is not supported") := by
  obtain ⟨fuel, hfuel⟩ := r.stepBound_eq
  refine ⟨nonEmpty (Naming.pascal (referenceName ref)) "<inline>", ?_⟩
  rw [inlineType, resolve, hfuel, resolveWithin, resolveStep_eq, form_of_not ht hcontested hnot]
  rfl

section Start

variable (hstart : Session.start r.doc = .ok start)
include hstart

theorem lookup_start (ref : String) : start.references.lookup ref = none := by
  rw [start_eq hstart]
  rfl

/-- A reference to a schema that declares a type has a declared type. -/
theorem isDeclared_referenceType (ht : r.target ref = .ok (schema, true))
    (h : r.referenceType start ref hint = .ok type) : type.isDeclared = true := by
  obtain ⟨fuel, t, hrun⟩ := resolveReference_of_referenceType h
  cases referenceOutcome hrun with
  | cached hs => cases (lookup_start hstart ref).symm.trans hs
  | inherited _ halias => cases ht.symm.trans halias
  | named => rfl

/-! ### Aliases -/

omit hstart in
/-- An alias has the type that its target has while the alias is in progress. -/
theorem fst_resolveReference_alias {resolve : Node → String → Build TypeExpr}
    (hs : s.references.lookup ref = none) (ht : r.target ref = .ok (schema, false))
    (hr : ref ∉ s.resolving) :
    (r.resolveReference resolve ref s).1 =
      (resolve schema (Naming.pascal (referenceName ref))
        { s with resolving := ref :: s.resolving }).1 := by
  rw [resolveReference_alias hs ht hr, bind_apply, whileResolving_apply]
  generalize resolve schema (Naming.pascal (referenceName ref)) _ = out
  rcases out with ⟨_ | type, t⟩
  · rfl
  · rfl

/-- An alias has the type that its target has inline, unless it is met again on the way. The bound
on the number of steps inside one another, which is smaller by one for the target, makes a
difference at most in a document with links. -/
theorem referenceType_of_alias (ht : r.target ref = .ok (schema, false)) (hint : String) :
    r.referenceType start ref hint = r.inlineType start ref schema ∨
      r.referenceType start ref hint = .error (.metAgain ref) ∨
      (r.referenceType start ref hint = .error .endless ∧ ¬ r.doc.IsTree) := by
  obtain ⟨fuel, hfuel⟩ := r.stepBound_eq
  have hresolving : start.resolving = [] := by
    rw [start_eq hstart]
    rfl
  have halias : r.referenceType start ref hint =
      (r.resolveWithin fuel schema (Naming.pascal (referenceName ref)) (start.inside ref)).1 := by
    rw [referenceType, resolve_ofReference hfuel, fst_resolveReference_alias
      (lookup_start hstart ref) ht (hresolving ▸ List.not_mem_nil), Session.inside, hresolving,
      List.nil_append]
  rw [halias, inlineType, resolve]
  rcases resolveWithin_sameInside ref fuel schema (Naming.pascal (referenceName ref)) start
    with h | h
  · rw [h]
    by_cases htree : r.doc.IsTree
    · left
      have hpart : r.doc.Part schema := (Document.part_hereditary r.doc).target rfl ht
      have hshares : Shares r.doc.Part r r := ⟨htree.shares_self, rfl⟩
      have hbound := r.budget_lt_stepBound (htree.bounds hpart).size
      have hsame := hshares.resolveWithin hpart (Nat.le_of_lt_succ (hfuel ▸ hbound))
        (Nat.le_of_lt hbound) (Naming.pascal (referenceName ref)) start (start.budget_le htree)
      rw [hsame]
    · have hle : fuel ≤ r.stepBound := hfuel ▸ Nat.le_succ fuel
      rcases resolveWithin_outlasts hle schema (Naming.pascal (referenceName ref))
        start with hendless | hsame
      · exact .inr (.inr ⟨hendless, htree⟩)
      · exact .inl (by rw [hsame])
  · exact .inr (.inl h)

/-- The type of an alias is the one that its target has inline. -/
theorem inlineType_of_alias (ht : r.target ref = .ok (schema, false))
    (h : r.referenceType start ref hint = .ok type) : r.inlineType start ref schema = .ok type := by
  rcases referenceType_of_alias hstart ht hint with hsame | hagain | ⟨hendless, -⟩
  · exact hsame ▸ h
  · cases h.symm.trans hagain
  · cases h.symm.trans hendless

/-- If the target of an alias has a type inline, nothing can go wrong with the alias but that a
resolution does not come to an end. -/
theorem isCircular_of_alias (ht : r.target ref = .ok (schema, false))
    (hinline : r.inlineType start ref schema = .ok type)
    (hreference : r.referenceType start ref hint = .error fault) : fault.IsCircular := by
  rcases referenceType_of_alias hstart ht hint with hsame | hagain | ⟨hendless, -⟩
  · cases hreference.symm.trans (hsame.trans hinline)
  · cases hreference.symm.trans hagain
    exact ⟨_, rfl⟩
  · cases hreference.symm.trans hendless
    trivial

/-! ### Schemas that declare a type -/

/-- After a resolution from the start all that is known is complete. -/
theorem complete_of_completes (h : r.Completes start t) (o : Origin) (ho : t.Knows o) :
    r.Complete t.Knows o :=
  (h.complete ho).resolve_left (not_knows_start hstart o)

omit hstart in
/-- What is complete can be added to all that a session knows. -/
theorem complete_of_add (h : ∀ o, t.Knows o → r.Complete t.Knows o) {added : Origin}
    (hadded : r.Complete t.Knows added) (o : Origin) (ho : o = added ∨ t.Knows o) :
    r.Complete (fun o => o = added ∨ t.Knows o) o := by
  rcases ho with rfl | ho
  · exact hadded.mono fun _ => .inr
  · exact (h o ho).mono fun _ => .inr

variable (hdoc : r.doc.Addressed) (ht : r.target ref = .ok (schema, true))
  (hcontested : ¬ schema.Contested)
include hdoc ht hcontested

/-- If a schema that is not contested can be declared inline, nothing can go wrong with the
reference but that a resolution does not come to an end. -/
theorem isCircular_of_inlineType (hinline : r.inlineType start ref schema = .ok type)
    (hreference : r.referenceType start ref hint = .error fault) : fault.IsCircular := by
  have hpart : r.doc.Part schema := (Document.part_hereditary r.doc).target rfl ht
  obtain ⟨t, hrun⟩ : ∃ t, r.resolve schema (Naming.pascal (referenceName ref)) start =
    (.ok type, t) :=
    ⟨_, Prod.ext hinline rfl⟩
  obtain ⟨hcompletes, hcovered⟩ := resolveWithin_completes hpart hrun
  have hcomplete := complete_of_completes hstart hcompletes
  -- The schema is known inline, so that it can be declared under the name of the reference too.
  have hdeclarable : r.Declarable t.Knows schema := by
    obtain ⟨hform, ho, -⟩ := hcovered
    cases hform.symm.trans (form_of_named ht hcontested _)
    have hknown := ho _ (List.mem_singleton.mpr rfl)
    exact (hcomplete _ hknown).declarable hdoc hpart hform
  have hadded : r.Complete t.Knows (.reference ref) := ⟨schema, .inl ⟨ht, hdeclarable⟩⟩
  have hclosed := complete_of_add hcomplete hadded
  obtain ⟨fuel, hfuel⟩ := r.stepBound_eq
  have hwithin := resolveReference_within
    (fun n hint hp hc => resolveWithin_within hdoc hclosed fuel hp hc hint) (.inl rfl)
    (hclosed _ (.inl rfl))
  rw [referenceType, resolve_ofReference hfuel] at hreference
  exact (hwithin start).2 fault hreference

/-- If a schema that is not contested can be declared under the name of the reference, nothing can
go wrong with it inline but that a resolution does not come to an end. -/
theorem isCircular_of_referenceType (hreference : r.referenceType start ref hint = .ok type)
    (hinline : r.inlineType start ref schema = .error fault) : fault.IsCircular := by
  have hpart : r.doc.Part schema := (Document.part_hereditary r.doc).target rfl ht
  obtain ⟨fuel, t, hrun⟩ := resolveReference_of_referenceType hreference
  obtain ⟨hcompletes, hknown⟩ :=
    resolveReference_completes (fun _ _ _ _ _ hp h => resolveWithin_completes hp h) hrun
  have hcomplete := complete_of_completes hstart hcompletes
  have hdeclarable : r.Declarable t.Knows schema := by
    obtain ⟨other, ⟨hother, hdeclarable⟩ | ⟨hother, -⟩⟩ := hcomplete _ hknown
    · cases ht.symm.trans hother
      exact hdeclarable
    · cases ht.symm.trans hother
  have hadded : r.Complete t.Knows (.inline schema.address) := ⟨schema, hpart, rfl, hdeclarable⟩
  have hclosed := complete_of_add hcomplete hadded
  have hcovered : r.Covered (fun o => o = .inline schema.address ∨ t.Knows o) schema :=
    .of_origin (form_of_named ht hcontested "") rfl rfl (.inl rfl)
  exact (resolveWithin_within hdoc hclosed r.stepBound hpart hcovered _ start).2 fault hinline

end Start

/-! ### The two ways -/

/-- The type of a reference and the type that its target has where it is used inline, each from the
start. If both have a type, then both or none of the types are declared, unless the target is
contested; inline that is not supported then, or a list. If the target is not contested and can be
resolved in one of the two ways, nothing can go wrong in the other one but that a resolution does
not come to an end; so what fails inline for any other reason fails under a name as well. An alias
even has the outcome of its target, be it a type or a fault, unless it is met again on the way, or
the bound, smaller by one, is reached in a document with links. -/
theorem reference_as_inline (hdoc : r.doc.Addressed) (hstart : Session.start r.doc = .ok start)
    (ht : r.target ref = .ok (schema, declares)) (hint : String) :
    (∀ type type', r.inlineType start ref schema = .ok type →
      r.referenceType start ref hint = .ok type' →
      (type.isDeclared = type'.isDeclared ↔ ¬ schema.Contested)) ∧
    (schema.Contested →
      (schema.has "not" = .ok true →
        ∃ label, r.inlineType start ref schema =
          .error (.unsupported label "'not' is not supported")) ∧
      ∀ type, r.inlineType start ref schema = .ok type → ∃ item, type = .list item) ∧
    (¬ schema.Contested →
      (∀ type fault, r.referenceType start ref hint = .ok type →
        r.inlineType start ref schema = .error fault → fault.IsCircular) ∧
      ∀ type fault, r.inlineType start ref schema = .ok type →
        r.referenceType start ref hint = .error fault → fault.IsCircular) ∧
    (declares = false →
      r.referenceType start ref hint = r.inlineType start ref schema ∨
        r.referenceType start ref hint = .error (.metAgain ref) ∨
        (r.referenceType start ref hint = .error .endless ∧ ¬ r.doc.IsTree)) := by
  cases declares with
  | true =>
    refine ⟨fun type type' hinline hreference => ?_,
      fun hcontested =>
      ⟨inlineType_of_not ht hcontested, fun _ => inlineType_of_contested ht hcontested⟩,
        fun hcontested =>
        ⟨fun _ _ => isCircular_of_referenceType hstart hdoc ht hcontested, fun _ _ =>
          isCircular_of_inlineType hstart hdoc ht hcontested⟩, fun h => by cases h⟩
    rw [isDeclared_referenceType hstart ht hreference]
    refine ⟨fun hdeclared hcontested => ?_, fun hcontested =>
      isDeclared_inlineType ht hcontested hinline⟩
    obtain ⟨item, rfl⟩ := inlineType_of_contested ht hcontested hinline
    cases hdeclared
  | false =>
    have hcontested : ¬ schema.Contested := fun hcontested => by
      cases hcontested.declares.symm.trans (declaresType_of_target ht)
    refine ⟨fun type type' hinline hreference => ?_, fun h => absurd h hcontested,
      fun _ => ⟨?_, ?_⟩, fun _ => referenceType_of_alias hstart ht hint⟩
    · cases hinline.symm.trans (inlineType_of_alias hstart ht hreference)
      exact ⟨fun _ => hcontested, fun _ => rfl⟩
    · intro type fault hreference hinline
      cases hinline.symm.trans (inlineType_of_alias hstart ht hreference)
    · exact fun type fault => isCircular_of_alias hstart ht

/-- A document with components `Rows`, an array with properties, and `Negated`, which has properties
and `not`. -/
def contests : Resolver where
  doc := .ofValue (.map [(.text "components", .map [(.text "schemas", .map [
    (.text "Rows", .map [
      (.text "type", .scalar (.text "array")), (.text "properties", .map [(.text "id", .map [])])]),
    (.text "Negated", .map [
      (.text "not", .map []), (.text "properties", .map [(.text "id", .map [])])])])])])
  primitives := pythonPrimitives

/-- The array is a list inline and a declared type under its name, so that it is contested. -/
theorem reference_as_inline_rows :
    contests.doc.Addressed ∧ ∃ start schema, Session.start contests.doc = .ok start ∧
      contests.target "#/components/schemas/Rows" = .ok (schema, true) ∧
      contests.inlineType start "#/components/schemas/Rows" schema =
        .ok (.list (.primitive "Any")) ∧
      contests.referenceType start "#/components/schemas/Rows" "" = .ok (.declared "Rows") ∧
      schema.Contested := by
  have hdoc : contests.doc.Addressed := (Document.wellFormed_ofValue (by decide)).toAddressed
  obtain ⟨start, hstart⟩ : ∃ start, Session.start contests.doc = .ok start := ⟨_, rfl⟩
  obtain ⟨schema, ht⟩ : ∃ schema, contests.target "#/components/schemas/Rows" =
    .ok (schema, true) := ⟨_, rfl⟩
  have hinline : contests.inlineType start "#/components/schemas/Rows" schema =
      .ok (.list (.primitive "Any")) := by
    cases hstart
    cases ht
    rfl
  have hreference : contests.referenceType start "#/components/schemas/Rows" "" =
      .ok (.declared "Rows") := by
    cases hstart
    cases ht
    rfl
  refine ⟨hdoc, start, schema, hstart, ht, hinline, hreference, ?_⟩
  by_contra hcontested
  have hkinds := ((reference_as_inline hdoc hstart ht "").1 _ _ hinline hreference).mpr hcontested
  cases hkinds

/-- Inline, the negated schema is not supported, and its name makes it a declared type. -/
theorem not_reference_as_inline_negated :
    ¬ ∀ (r : Resolver) (start : Session) (ref hint : String) (schema : Node) (declares : Bool),
      r.doc.WellFormed → Session.start r.doc = .ok start → r.target ref = .ok (schema, declares) →
      schema.has "$ref" = .ok false →
        (∀ label reason, r.inlineType start ref schema = .error (.unsupported label reason) →
          ∃ label' reason', r.referenceType start ref hint = .error (.unsupported label' reason')) ∧
        ∀ type type', r.inlineType start ref schema = .ok type →
          r.referenceType start ref hint = .ok type' →
          type.isDeclared = type'.isDeclared := by
  intro h
  obtain ⟨start, hstart⟩ : ∃ start, Session.start contests.doc = .ok start := ⟨_, rfl⟩
  obtain ⟨schema, ht⟩ : ∃ schema, contests.target "#/components/schemas/Negated" =
    .ok (schema, true) :=
    ⟨_, rfl⟩
  have href := Node.has_ref_of_declaresType (declaresType_of_target ht)
  obtain ⟨hfaults, -⟩ := h contests start "#/components/schemas/Negated" "" schema true
    (Document.wellFormed_ofValue (by decide)) hstart ht href
  have hinline : contests.inlineType start "#/components/schemas/Negated" schema =
      .error (.unsupported "Negated" "'not' is not supported") := by
    cases hstart
    cases ht
    rfl
  have hreference : contests.referenceType start "#/components/schemas/Negated" "" =
      .ok (.declared "Negated") := by
    cases hstart
    cases ht
    rfl
  obtain ⟨label, reason, hfault⟩ := hfaults _ _ hinline
  cases hreference.symm.trans hfault

end Resolver

end ServiceContract
