import ServiceContract.Proofs.Schema.WithNull

/-!
# Resolution of schemas that allow null

Since counterparts ask for the same, they resolve in the same way from every session: to the same
type, with the same declarations, or they fail with faults of the same class.

## Main results

* `Document.AllowsNull.resolveStep`: what one step of resolution does.
* `Document.AllowsNull.resolveSchema`: resolution.
-/

namespace ServiceContract

namespace Document.AllowsNull

open Build Resolver

variable {S : Address → Bool} {r : Resolver} {n n' : Node} (hS : r.doc.AllowsNull S)
  (hkeeps : r.KeepsEnumerations S)

section Step

variable {resolve resolve' : Node → String → Build TypeExpr}
  (hf : ∀ {n n'} (hint : String), r.doc.Counterpart S .schema n n' →
    Build.Corresponds (resolve n hint) (resolve' n' hint))
include hf

theorem resolveFields (owner : String) (required : List Scalar)
    {properties properties' : List (Scalar × Node)}
    (h : List.Forall₂ (SameKey (r.doc.Counterpart S .schema)) properties properties') :
    Build.Corresponds (Resolver.resolveFields resolve owner required properties)
      (Resolver.resolveFields resolve' owner required properties') := by
  induction h with
  | nil => exact .refl _
  | cons he _ ih =>
    obtain ⟨key, hproperty⟩ := he
    have hpresent := hproperty.orEmpty
    refine .lift_bind_right fun wireName _ => .bind (hf _ hpresent) fun type => ?_
    rw [hpresent.get_eq (by decide : "description" ≠ "type")]
    refine .lift_bind_map fun value _ => ?_
    rw [Node.trimmedText_withNull]
    exact .lift_bind_right fun description _ => .bind ih fun fields => .refl _

include hS hkeeps

theorem declareType (h : r.doc.Counterpart S .schema n n') (name : String) :
    Build.Corresponds (r.declareType resolve n name)
      ((r.withNull S).declareType resolve' n' name) := by
  rw [declareType_eq, declareType_eq]
  refine .lift_bind (hS.blueprint hkeeps h name) fun blueprint blueprint' _ hblueprint => ?_
  cases hblueprint with
  | enumeration valueType members description => exact .refl _
  | record required description hproperties =>
    exact .bind (resolveFields hf name required hproperties) fun fields => .refl _

theorem resolveReference {value : Node} {ref : String} (hn : r.doc.Reads .schema n)
    (hvalue : n.get "$ref" = .ok value) (htext : value.asText = .ok ref) :
    Build.Corresponds (r.resolveReference resolve ref)
      ((r.withNull S).resolveReference resolve' ref) := by
  intro s
  cases hs : s.references.lookup ref with
  | some type => exact .inl (by rw [resolveReference_cached hs, resolveReference_cached hs])
  | none =>
    rw [resolveReference_eq hs, resolveReference_eq hs]
    refine Build.Corresponds.lift_bind (hS.target hn hvalue htext) ?_ s
    rintro ⟨schema, declares⟩ ⟨schema', declares'⟩ - ⟨hschema, hdeclares⟩
    obtain rfl : declares' = declares := hdeclares
    refine .ite ?_ (.bind_right fun resolving => .ite (.refl _) ?_)
    · refine .bind_right fun name => ?_
      exact .bind (declareType hS hkeeps hf hschema name) fun _ => .refl _
    · exact .bind ((hf _ hschema).whileResolving ref) fun type => .refl _

theorem resolveInline (h : r.doc.Counterpart S .schema n n') (hint : String) :
    Build.Corresponds (r.resolveInline resolve n hint)
      ((r.withNull S).resolveInline resolve' n' hint) := by
  have hinline : inline? n' = inline? n := by rw [inline?, inline?, h.address]
  have hreserve (hint : String) : reserveInline n' hint = reserveInline n hint := by
    rw [reserveInline, reserveInline, h.address]
  unfold Resolver.resolveInline
  rw [hinline, hreserve]
  refine .bind_right fun found => ?_
  cases found with
  | some name => exact .refl _
  | none =>
    refine .bind_right fun name => ?_
    exact .bind (declareType hS hkeeps hf h name) fun _ => .refl _

/-- One step of resolution does the same for counterparts. -/
theorem resolveStep (h : r.doc.Counterpart S .schema n n') (hint : String) :
    Build.Corresponds (r.resolveStep resolve n hint)
      ((r.withNull S).resolveStep resolve' n' hint) := by
  rw [resolveStep_eq, resolveStep_eq]
  refine .lift_bind (hS.form h _) fun form form' hform hforms => ?_
  cases hforms with
  | absent => exact .refl _
  | reference ref =>
    cases formReason hform with
    | reference _ hvalue htext => exact resolveReference hS hkeeps hf h.reads hvalue htext
  | wrapper hinner => exact hf hint hinner
  | inline => exact resolveInline hS hkeeps hf h hint
  | list hitems => exact .bind (hf _ hitems) fun type => .refl _
  | map hvalues => exact .bind (hf _ hvalues) fun type => .refl _
  | primitive name => exact .refl _

end Step

include hS hkeeps in
/-- Counterparts resolve in the same way. -/
theorem resolveSchema (h : r.doc.Counterpart S .schema n n') (hint : String) :
    Build.Corresponds (r.resolve n hint) ((r.withNull S).resolve n' hint) := by
  have hwithin (fuel : Nat) {n n' : Node} (hint : String) (h : r.doc.Counterpart S .schema n n') :
      Build.Corresponds (r.resolveWithin fuel n hint)
      ((r.withNull S).resolveWithin fuel n' hint) := by
    induction fuel generalizing n n' hint with
    | zero => exact .refl _
    | succ fuel ih => exact hS.resolveStep hkeeps (fun hint h => ih hint h) h hint
  exact hwithin r.stepBound hint h

end Document.AllowsNull

end ServiceContract
