import ServiceContract.Proofs.Schema.Part

/-!
# Sessions along resolutions

A relation between sessions that every change of a session keeps to holds between the session before
a resolution and the one after it. It is enough that the schemas with a hereditary property keep to
it, if the schema that is resolved has the property.

## Main results

* `Resolver.resolveStep_moves_of`, `Resolver.resolveStep_moves`: one step of resolution, given how
  references and inline schemas move.
-/

namespace ServiceContract

open Build

variable {r : Resolver} {R : Session → Session → Prop} [IsPreorder Session R]

namespace Resolver

variable {resolve : Node → String → Build TypeExpr}

section Hereditary

variable {P : Node → Prop} (hP : r.doc.Hereditary P) (hf : ∀ n hint, P n → Moves R (resolve n hint))
include hf

theorem resolveFields_moves_of (owner : String) (required : List Scalar)
    {properties : List (Scalar × Node)} (hp : ∀ e ∈ properties, P e.2.orEmpty) :
    Moves R (resolveFields resolve owner required properties) := by
  induction properties with
  | nil => exact .pure _
  | cons e properties ih =>
    obtain ⟨he, hp⟩ := List.forall_mem_cons.mp hp
    refine .lift_bind fun wireName _ => .bind (hf _ _ he) fun type => ?_
    exact .lift_bind fun value _ => .lift_bind fun text _ => .bind (ih hp) fun fields => .pure _

theorem resolveForm_moves_of (href : ∀ ref, Moves R (r.resolveReference resolve ref))
    {schema : Node} {hint : String} {form : SchemaForm}
    (hinline : form = .inline → Moves R (r.resolveInline resolve schema hint))
    (hform : ∀ n ∈ form.schemas, P n) : Moves R (r.resolveForm resolve schema hint form) := by
  cases form with
  | absent => exact .pure _
  | reference ref => exact href ref
  | wrapper inner => exact hf inner hint (hform inner List.mem_cons_self)
  | inline => exact hinline rfl
  | list items => exact .bind (hf items _ (hform items List.mem_cons_self)) fun type => .pure _
  | map values => exact .bind (hf values _ (hform values List.mem_cons_self)) fun type => .pure _
  | primitive name => exact .pure _

include hP

theorem declareType_moves_of (hd : ∀ d, Moves R (declare d)) {schema : Node} (hs : P schema)
    (name : String) :
    Moves R (r.declareType resolve schema name) := by
  rw [declareType_eq]
  refine .lift_bind fun blueprint hblueprint => ?_
  cases blueprint with
  | enumeration => exact hd _
  | record =>
    have hproperties := hP.blueprint rfl hs hblueprint
    exact .bind (resolveFields_moves_of hf _ _ fun e he => hP.orEmpty (hproperties e he))
      fun fields => hd _

/-- The session along one step of resolution of a schema with a hereditary property. -/
theorem resolveStep_moves_of (href : ∀ ref, Moves R (r.resolveReference resolve ref))
    {schema : Node} {hint : String}
    (hinline : r.form schema (nonEmpty hint "<inline>") = .ok .inline →
      Moves R (r.resolveInline resolve schema hint)) (hs : P schema) :
        Moves R (r.resolveStep resolve schema hint) := by
  rw [resolveStep_eq]
  refine .lift_bind fun form hform =>
    resolveForm_moves_of hf href (fun hsame => ?_) (hP.form rfl hs hform)
  exact hinline (hsame ▸ hform)

end Hereditary

theorem resolveFields_moves (hf : ∀ n hint, Moves R (resolve n hint)) (owner : String)
    (required : List Scalar) (properties : List (Scalar × Node)) :
    Moves R (resolveFields resolve owner required properties) :=
  resolveFields_moves_of (P := fun _ => True) (fun n hint _ => hf n hint) owner required fun _ _ =>
    trivial

theorem declareType_moves (hf : ∀ n hint, Moves R (resolve n hint))
    (hd : ∀ d, Moves R (declare d)) (schema : Node) (name : String) :
    Moves R (r.declareType resolve schema name) :=
  declareType_moves_of r.doc.true_hereditary (fun n hint _ => hf n hint) hd trivial name

/-- The session along a reference: it moves while an alias is in progress, when its type is
recorded, and while a name is given and the type with that name is declared. -/
theorem resolveReference_moves
    (halias : ∀ {ref schema s}, s.references.lookup ref = none →
      r.target ref = .ok (schema, false) → ref ∉ s.resolving →
      R s (whileResolving ref (resolve schema (Naming.pascal (referenceName ref))) s).2 ∧
        ∀ {type t}, whileResolving ref (resolve schema (Naming.pascal (referenceName ref))) s =
          (.ok type, t) → R t { t with references := (ref, type) :: t.references })
    (hnamed : ∀ {ref schema s}, s.references.lookup ref = none →
      r.target ref = .ok (schema, true) → ∀ {name t}, reserveReference ref s = (.ok name, t) →
        R s (r.declareType resolve schema name t).2)
    (ref : String) : Moves R (r.resolveReference resolve ref) := by
  intro s
  cases hs : s.references.lookup ref with
  | some type =>
    rw [resolveReference_cached hs]
    exact refl_of R s
  | none =>
    rcases ht : r.target ref with fault | ⟨schema, _ | _⟩
    · rw [resolveReference_of_error hs ht]
      exact refl_of R s
    · by_cases hr : ref ∈ s.resolving
      · rw [resolveReference_circular hs ht hr]
        exact refl_of R s
      · rw [resolveReference_alias hs ht hr]
        exact Moves.bind_at (halias hs ht hr).1 fun hres => (halias hs ht hr).2 hres
    · rw [resolveReference_named hs ht]
      obtain ⟨name, taken, -, hname⟩ := reserveReference_apply ref s
      exact Moves.after hname (Moves.bind_at (hnamed hs ht hname) fun _ => refl_of R _)

/-- The session along an inline schema: it moves while a name is given and the type with that name
is declared. -/
theorem resolveInline_moves_of {schema : Node}
    (hnew : ∀ {hint s}, s.inlines.lookup schema.address = none →
      ∀ {name t}, reserveInline schema hint s = (.ok name, t) →
        R s (r.declareType resolve schema name t).2) (hint : String) :
    Moves R (r.resolveInline resolve schema hint) := by
  intro s
  cases hs : s.inlines.lookup schema.address with
  | some name =>
    rw [resolveInline_cached hs]
    exact refl_of R s
  | none =>
    rw [resolveInline_new hs]
    have hname := reserveInline_apply schema (nonEmpty hint "Inline") s
    exact Moves.after hname (Moves.bind_at (hnew hs hname) fun _ => refl_of R _)

theorem resolveInline_moves
    (hnew : ∀ {schema hint s}, s.inlines.lookup schema.address = none →
      ∀ {name t}, reserveInline schema hint s = (.ok name, t) →
        R s (r.declareType resolve schema name t).2)
    (schema : Node) (hint : String) : Moves R (r.resolveInline resolve schema hint) :=
  resolveInline_moves_of hnew hint

theorem resolveStep_moves (hf : ∀ n hint, Moves R (resolve n hint))
    (href : ∀ ref, Moves R (r.resolveReference resolve ref))
    (hinline : ∀ n hint, Moves R (r.resolveInline resolve n hint)) (schema : Node)
    (hint : String) : Moves R (r.resolveStep resolve schema hint) :=
  resolveStep_moves_of r.doc.true_hereditary (fun n hint _ => hf n hint) href
    (fun _ => hinline schema hint) trivial

end Resolver

end ServiceContract
