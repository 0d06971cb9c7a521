import ServiceContract.Proofs.Schema.Form
import ServiceContract.Proofs.Session.BuiltIn

/-!
# Schemas under two tables of built-in types

Two tables of built-in types *accept* the same schemas if they have a type for the same names of
schema types, whatever it is and however a format refines it. Under two such tables a schema
resolves in the same way: what it asks for, what is declared on the way and what goes wrong do not
depend on the spelling of built-in types. The tables of the targets accept the same schemas, since
formats only refine names that have a type without them.

## Main definitions

* `PrimitiveTable.names`, `PrimitiveTable.Refines`: the names of schema types that a table has a
  type for.
* `Resolver.Resembles`: the same document under tables that accept the same schemas.
* `SchemaForm.Resembles`, `Blueprint.Resembles`.

## Main results

* `Target.lookup_matches`: the tables of two targets accept the same schemas.
* `Resolver.resolve_twins`: schemas resolve in the same way, up to built-in types.
-/

namespace ServiceContract

/-! ### Tables -/

namespace PrimitiveTable

/-- The names of the schema types that the table has a type for. -/
def names (table : PrimitiveTable) : List String :=
  table.types.map Prod.fst

/-- Formats only refine names that have a type without them. -/
def Refines (table : PrimitiveTable) : Prop :=
  ∀ e ∈ table.formats, e.1.1 ∈ table.names

instance (table : PrimitiveTable) : Decidable table.Refines :=
  inferInstanceAs (Decidable (∀ e ∈ table.formats, e.1.1 ∈ table.names))

variable {table table' : PrimitiveTable}

theorem isSome_lookup_types (table : PrimitiveTable) (type : String) :
    (table.types.lookup type).isSome = true ↔ type ∈ table.names := by
  simp [names, List.lookup_isSome_iff]

/-- Whether there is a type does not depend on the format. -/
theorem isSome_find? (h : table.Refines) (type format : String) :
    (table.find? type format).isSome = true ↔ type ∈ table.names := by
  rw [find?, Option.isSome_or, Bool.or_eq_true, isSome_lookup_types]
  refine or_iff_right_of_imp fun hformat => ?_
  obtain ⟨e, he, hkey⟩ := List.lookup_isSome_iff.mp hformat
  have hsame : (type, format) = e.1 := eq_of_beq hkey
  have hname := h e he
  rwa [← hsame] at hname

/-- Tables with the same names accept the same schemas. -/
theorem lookup_matches (h : table.Refines) (h' : table'.Refines)
    (hnames : table.names = table'.names) (type format : Node) :
    Matches (fun a b => a.isSome = b.isSome) (table.lookup type format)
      (table'.lookup type format) := by
  have hfind (type format : String) :
      (table.find? type format).isSome = (table'.find? type format).isSome := by
    rw [Bool.eq_iff_iff, isSome_find? h, isSome_find? h', hnames]
  have htypes (type : String) :
      (table.types.lookup type).isSome = (table'.types.lookup type).isSome := by
    rw [Bool.eq_iff_iff, isSome_lookup_types, isSome_lookup_types, hnames]
  unfold lookup
  split_ifs
  · exact .error _
  · split
    · exact .ok (hfind _ _)
    · exact .ok (htypes _)
    · exact .ok rfl

end PrimitiveTable

/-- The tables of two targets accept the same schemas. -/
theorem Target.lookup_matches (target target' : Target) (type format : Node) :
    Matches (fun a b => a.isSome = b.isSome) (target.primitives.lookup type format)
      (target'.primitives.lookup type format) := by
  have hrefines (target : Target) : target.primitives.Refines := by cases target <;> decide
  have hnames (target : Target) :
      target.primitives.names = ["string", "integer", "number", "boolean"] := by
    cases target <;> rfl
  exact PrimitiveTable.lookup_matches (hrefines _) (hrefines _)
    ((hnames _).trans (hnames _).symm) _ _

/-! ### Forms and blueprints -/

/-- The forms are the same, or both are those of primitive schemas. -/
inductive SchemaForm.Resembles : SchemaForm → SchemaForm → Prop
  | refl (form : SchemaForm) : Resembles form form
  | primitive (name name' : String) : Resembles (.primitive name) (.primitive name')

/-- The blueprints are the same, or both are those of enumerations that differ at most in the type
of the values, which is the same up to built-in types. -/
inductive Blueprint.Resembles (symbol : String) : Blueprint → Blueprint → Prop
  | enumeration {valueType valueType' : TypeExpr}
    (h : SameBuiltIn (TypeExpr.withBuiltIn symbol) valueType valueType')
    (members : List (String × Value)) (description : String) :
    Resembles symbol (.enumeration valueType members description)
      (.enumeration valueType' members description)
  | record (required : List Scalar) (properties : List (Scalar × Node)) (description : String) :
    Resembles symbol (.record required properties description)
      (.record required properties description)

namespace Resolver

/-- The resolvers have the same document, and their tables of built-in types accept the same
schemas. -/
structure Resembles (r r' : Resolver) : Prop where
  doc : r.doc = r'.doc
  lookup : ∀ type format, Matches (fun a b => a.isSome = b.isSome) (r.primitives.lookup type format)
    (r'.primitives.lookup type format)

variable {r r' : Resolver} {symbol : String}

theorem objectForm_matches (schema : Node) :
    Matches SchemaForm.Resembles (r.objectForm schema) (r'.objectForm schema) := by
  refine .bind_right fun values => ?_
  split
  · exact .ok (.refl _)
  · exact .ok (.primitive _ _)

section Resembles

variable (h : r.Resembles r')
include h

theorem statedForm_matches (schema : Node) (label : String) :
    Matches SchemaForm.Resembles (r.statedForm schema label) (r'.statedForm schema label) := by
  refine .bind_right fun type => ?_
  by_cases harray : type.isText "array" = true
  · rw [if_pos harray, if_pos harray]
    exact .refl .refl _
  rw [if_neg harray, if_neg harray]
  refine .bind_right fun hasProperties => ?_
  by_cases hobject : (type.isText "object" || hasProperties) = true
  · rw [if_pos hobject, if_pos hobject]
    refine .bind_right fun properties => ?_
    split_ifs
    · exact .ok (.refl _)
    · exact objectForm_matches schema
  rw [if_neg hobject, if_neg hobject]
  by_cases hnull : type.isNull = true
  · rw [if_pos hnull, if_pos hnull]
    exact .ok (.primitive _ _)
  rw [if_neg hnull, if_neg hnull]
  refine .bind_right fun format => .bind (h.lookup type format) fun found found' hfound => ?_
  -- Both tables have a type for the name, or neither has one.
  cases found with
  | some name =>
    obtain ⟨name', rfl⟩ := Option.isSome_iff_exists.mp hfound.symm
    exact .ok (.primitive _ _)
  | none =>
    obtain rfl : found' = none := by simpa using hfound
    exact .refl .refl _

/-- What a schema asks for is the same under both tables, up to built-in types. -/
theorem form_matches (schema : Node) (label : String) :
    Matches SchemaForm.Resembles (r.form schema label) (r'.form schema label) := by
  rw [form, form, h.doc]
  split_ifs
  · exact .ok (.refl _)
  refine .bind_right fun isReference => ?_
  split_ifs
  · exact .refl .refl _
  refine .bind_right fun layer => ?_
  cases layer with
  | some inner => exact .refl .refl _
  | none =>
    refine .bind_right fun hasMembers => ?_
    split_ifs
    · exact .ok (.refl _)
    refine .bind_right fun hasNot => ?_
    split_ifs
    · exact .error _
    refine .bind_right fun hasEnum => ?_
    split_ifs
    · exact .ok (.refl _)
    · exact statedForm_matches h schema label

theorem enumValueType_matches (schema : Node) :
    Matches (SameBuiltIn (TypeExpr.withBuiltIn symbol)) (r.enumValueType schema)
      (r'.enumValueType schema) :=
  .bind_right fun _ => .bind_right fun _ => .bind (h.lookup _ _) fun _ _ _ => .ok rfl

/-- What a declaration is made from is the same under both tables, up to built-in types. -/
theorem blueprint_matches (schema : Node) (name : String) :
    Matches (Blueprint.Resembles symbol) (r.blueprint schema name) (r'.blueprint schema name) := by
  refine .bind_right fun value => .bind_right fun description => .bind_right fun hasEnum => ?_
  split_ifs
  · have htypes : Matches (SameBuiltIn (TypeExpr.withBuiltIn symbol)) (r.enumValueType schema)
        (r'.enumValueType schema) := enumValueType_matches h schema
    refine .bind htypes fun valueType valueType' htype => ?_
    exact .bind_right fun values => .bind_right fun items => .bind_right fun members =>
      .ok (.enumeration htype _ _)
  · have hshape : r.shapeOf schema name = r'.shapeOf schema name := by
      rw [shapeOf, shapeOf, h.doc]
    rw [hshape]
    exact .bind_right fun shape => .bind_right fun required => .ok (.record _ _ _)

end Resembles

/-! ### Resolution -/

open Build Session

section Step

variable (h : r.Resembles r') {resolve resolve' : Node → String → Build TypeExpr}
  (hf : ∀ n hint, Twins (Session.Resembles symbol) (SameBuiltIn (TypeExpr.withBuiltIn symbol))
    (resolve n hint) (resolve' n hint))
include hf

theorem resolveFields_twins (owner : String) (required : List Scalar)
    (properties : List (Scalar × Node)) :
    Twins (Session.Resembles symbol) (SameBuiltIn (List.map (Field.withBuiltIn symbol)))
      (resolveFields resolve owner required properties)
      (resolveFields resolve' owner required properties) := by
  induction properties with
  | nil => exact .pure rfl
  | cons e properties ih =>
    refine .lift_bind_right fun wireName => .bind (hf _ _) fun type type' htype => ?_
    refine .lift_bind_right fun value => .lift_bind_right fun description => ?_
    refine .bind ih fun fields fields' hfields => .pure ?_
    have hfields : fields.map (Field.withBuiltIn symbol) =
        fields'.map (Field.withBuiltIn symbol) := hfields
    have htype : type.withBuiltIn symbol = type'.withBuiltIn symbol := htype
    simp only [SameBuiltIn, List.map_cons, Field.withBuiltIn, htype, hfields]

include h

theorem declareType_twins (schema : Node) (name : String) :
    Twins (Session.Resembles symbol) Eq (r.declareType resolve schema name)
      (r'.declareType resolve' schema name) := by
  rw [declareType_eq, declareType_eq]
  have hblueprints : Matches (Blueprint.Resembles symbol) (r.blueprint schema name)
      (r'.blueprint schema name) := blueprint_matches h schema name
  refine .lift_bind hblueprints fun blueprint blueprint' hblueprint => ?_
  cases hblueprint with
  | enumeration htype members description =>
    have htype : TypeExpr.withBuiltIn symbol _ = _ := htype
    exact .declare (by simp only [SameBuiltIn, Declaration.withBuiltIn, htype])
  | record required properties description =>
    refine .bind (resolveFields_twins hf name required properties) fun fields fields' hfields => ?_
    have hfields : fields.map (Field.withBuiltIn symbol) =
        fields'.map (Field.withBuiltIn symbol) := hfields
    exact .declare (by simp only [SameBuiltIn, Declaration.withBuiltIn, hfields])

theorem resolveReference_twins (ref : String) :
    Twins (Session.Resembles symbol) (SameBuiltIn (TypeExpr.withBuiltIn symbol))
      (r.resolveReference resolve ref) (r'.resolveReference resolve' ref) := by
  rw [resolveReference, resolveReference, h.doc]
  refine .bind (.reference? ref) fun found found' hfound => ?_
  have hfound : found.map (TypeExpr.withBuiltIn symbol) =
      found'.map (TypeExpr.withBuiltIn symbol) := hfound
  cases found with
  | some type =>
    cases found' with
    | some type' => exact .pure (Option.some.inj hfound)
    | none => cases hfound
  | none =>
    cases found' with
    | some type' => cases hfound
    | none =>
      refine .lift_bind_right fun node => .lift_bind_right fun target =>
        .lift_bind_right fun declares => ?_
      split_ifs
      · refine .bind_eq (.reserveReference ref) fun name => ?_
        exact .bind_eq (declareType_twins h hf target name) fun _ => .pure rfl
      · refine .bind_eq .resolving fun resolving => ?_
        split_ifs
        · exact .fail _
        · refine .bind (.whileResolving_resembles (hf _ _) ref) fun type type' htype => ?_
          exact .bind_eq (.remember ref htype) fun _ => .pure htype

theorem resolveInline_twins (schema : Node) (hint : String) :
    Twins (Session.Resembles symbol) (SameBuiltIn (TypeExpr.withBuiltIn symbol))
      (r.resolveInline resolve schema hint) (r'.resolveInline resolve' schema hint) := by
  refine .bind_eq (.inline? schema) fun found => ?_
  cases found with
  | some name => exact .pure rfl
  | none =>
    refine .bind_eq (.reserveInline schema _) fun name => ?_
    exact .bind_eq (declareType_twins h hf schema name) fun _ => .pure rfl

theorem resolveStep_twins (schema : Node) (hint : String) :
    Twins (Session.Resembles symbol) (SameBuiltIn (TypeExpr.withBuiltIn symbol))
      (r.resolveStep resolve schema hint) (r'.resolveStep resolve' schema hint) := by
  rw [resolveStep_eq, resolveStep_eq]
  refine .lift_bind (form_matches h schema _) fun form form' hform => ?_
  cases hform with
  | primitive name name' => exact .pure rfl
  | refl =>
    cases form with
    | absent => exact .pure rfl
    | reference ref => exact resolveReference_twins h hf ref
    | wrapper inner => exact hf inner hint
    | inline => exact resolveInline_twins h hf schema hint
    | list items =>
      exact .bind (hf _ _) fun type type' htype => .pure (congrArg TypeExpr.list htype)
    | map values =>
      exact .bind (hf _ _) fun type type' htype => .pure (congrArg TypeExpr.map htype)
    | primitive name => exact .pure rfl

end Step

theorem resolveWithin_twins (h : r.Resembles r') (fuel : Nat) (schema : Node) (hint : String) :
    Twins (Session.Resembles symbol) (SameBuiltIn (TypeExpr.withBuiltIn symbol))
      (r.resolveWithin fuel schema hint) (r'.resolveWithin fuel schema hint) := by
  induction fuel generalizing schema hint with
  | zero => exact .fail _
  | succ fuel ih => exact resolveStep_twins h ih schema hint

/-- A schema resolves in the same way under both tables, up to built-in types. -/
theorem resolve_twins (h : r.Resembles r') (schema : Node) (hint : String) :
    Twins (Session.Resembles symbol) (SameBuiltIn (TypeExpr.withBuiltIn symbol))
      (r.resolve schema hint) (r'.resolve schema hint) := by
  rw [resolve, resolve, stepBound, stepBound, h.doc]
  exact resolveWithin_twins h _ schema hint

end Resolver

end ServiceContract
