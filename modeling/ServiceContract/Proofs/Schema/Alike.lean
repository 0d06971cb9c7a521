import Mathlib.Data.List.Forall2
import ServiceContract.Proofs.Document.Alike
import ServiceContract.Proofs.Schema.Form

/-!
# Schemas in similar documents

In documents that are similar, schemas that are alike have the same forms, but for the order of the
entries of what they wrap, and are declared alike. So they resolve in the same way to the same
types.

## Main results

* `Resolver.resolve_alike`: schemas that are alike resolve in the same way in similar documents.
-/

namespace ServiceContract

open Node

/-! ### Wrappers and types -/

namespace Node.Alike

variable {n m : Node} (h : Alike n m)
include h

theorem onlyAlternative (keyword label : String) :
    n.onlyAlternative keyword label = m.onlyAlternative keyword label := by
  rw [Node.onlyAlternative, Node.onlyAlternative, alternatives, alternatives, h.get]

theorem stripLayer (label : String) : n.stripLayer label = m.stripLayer label := by
  simp only [Node.stripLayer, shapedMembers, h.has, h.get, h.onlyAlternative]

theorem unwrapWithin (label : String) (fuel : Nat) :
    Matches Alike (n.unwrapWithin label fuel) (m.unwrapWithin label fuel) := by
  cases fuel with
  | zero => exact .error _
  | succ fuel =>
    rw [Node.unwrapWithin, Node.unwrapWithin, h.stripLayer]
    refine .bind_right fun layer => ?_
    cases layer with
    | none => exact .ok h
    | some inner => exact .refl .refl _

theorem statedType (label : String) : n.statedType label = m.statedType label := by
  rw [Node.statedType, Node.statedType, h.get]

theorem declaresType : n.declaresType = m.declaresType := by
  rw [Node.declaresType, Node.declaresType, h.has, h.hasAny, h.get]

theorem isObjectLike (label : String) : n.isObjectLike label = m.isObjectLike label := by
  rw [Node.isObjectLike, Node.isObjectLike, h.hasAny, h.statedType]

theorem ofMember : Shape.ofMember n = Shape.ofMember m := by
  rw [Shape.ofMember, Shape.ofMember, h.get, h.get]

theorem ofObject : Shape.ofObject n = Shape.ofObject m := by
  rw [Shape.ofObject, Shape.ofObject, h.get, h.get]

end Node.Alike

/-! ### Shapes -/

namespace Document.Similar

variable {doc doc' : Document} (h : doc.Similar doc') {n m : Node} {label : String}
include h

theorem unwrap (hn : Alike n m) : Matches Alike (doc.unwrap n label) (doc'.unwrap m label) := by
  rw [Document.unwrap, Document.unwrap, h.size]
  exact hn.unwrapWithin label _

theorem dereference (fuel : Nat) (hn : Alike n m) :
    Matches Alike (doc.dereference fuel n) (doc'.dereference fuel m) := by
  induction fuel generalizing n m with
  | zero => exact .error _
  | succ fuel ih =>
    rw [Document.dereference, Document.dereference, hn.has, hn.get]
    refine .bind_right fun isReference => ?_
    split_ifs
    · refine .bind_right fun value => .bind_right fun ref => ?_
      exact .bind (h.resolve ref) fun a b hab => ih hab
    · exact .ok hn

theorem memberShape {flatten flatten' : Node → Except Fault Shape}
    (hf : ∀ a b, Alike a b → flatten a = flatten' b) (hn : Alike n m) {member member' : Node}
    (hm : Alike member member') :
    doc.memberShape flatten label n member = doc'.memberShape flatten' label m member' := by
  rw [Document.memberShape, Document.memberShape, h.size]
  refine (h.dereference _ hm).bind_eq fun part part' hpart => ?_
  rw [hpart.has, hpart.address, hn.address, hpart.isObjectLike, hpart.ofMember, hf part part' hpart]

theorem mergeMembers {flatten flatten' : Node → Except Fault Shape}
    (hf : ∀ a b, Alike a b → flatten a = flatten' b) (hn : Alike n m) {members members' : List Node}
    (hm : List.Forall₂ Alike members members') (shape : Shape) :
    doc.mergeMembers flatten label n shape members =
      doc'.mergeMembers flatten' label m shape members' := by
  induction hm generalizing shape with
  | nil => rfl
  | cons hmember _ ih =>
    rw [Document.mergeMembers, Document.mergeMembers, h.memberShape hf hn hmember]
    exact bind_congr fun part => ih _

theorem flattenWithin (fuel : Nat) (hn : Alike n m) :
    doc.flattenWithin label fuel n = doc'.flattenWithin label fuel m := by
  induction fuel generalizing n m with
  | zero => rfl
  | succ fuel ih =>
    rw [Document.flattenWithin, Document.flattenWithin, hn.get]
    refine bind_congr fun value => bind_congr fun members => ?_
    refine h.mergeMembers (fun a b hab => ih hab) hn ?_ _
    exact List.rel_append (List.forall₂_same.mpr fun a _ => .refl a) (.cons hn .nil)

end Document.Similar

/-! ### Resolution -/

namespace Resolver

variable {r r' : Resolver} (h : r.doc.Similar r'.doc) (hr : r.primitives = r'.primitives)
  {n m : Node} (hn : Alike n m)

include h hn in
theorem shapeOf_alike (name : String) : r.shapeOf n name = r'.shapeOf m name := by
  rw [shapeOf, shapeOf, Document.flatten, Document.flatten, h.size, hn.has, hn.ofObject,
    h.flattenWithin _ hn]

include hr hn in
theorem enumValueType_alike : r.enumValueType n = r'.enumValueType m := by
  simp only [enumValueType, hn.get, hr]

variable {resolve : Node → String → Build TypeExpr}
  (hf : ∀ ⦃a b⦄ hint, Alike a b → resolve a hint = resolve b hint)
include h hr

include hn in
theorem declareType_alike (name : String) :
    r.declareType resolve n name = r'.declareType resolve m name := by
  simp only [declareType, hn.get, hn.has, enumValueType_alike hr hn, shapeOf_alike h hn]

include hf in
theorem resolveReference_alike (ref : String) :
    r.resolveReference resolve ref = r'.resolveReference resolve ref := by
  rw [resolveReference, resolveReference]
  refine bind_congr fun found => ?_
  cases found with
  | some type => rfl
  | none =>
    refine (h.resolve ref).lift_bind_eq fun a b hab => (h.unwrap hab).lift_bind_eq fun n m hn => ?_
    simp only [hn.declaresType, declareType_alike h hr hn, hf _ hn]

include hn in
theorem resolveInline_alike (hint : String) :
    r.resolveInline resolve n hint = r'.resolveInline resolve m hint := by
  rw [resolveInline, resolveInline, Build.inline?, Build.inline?, hn.address]
  refine bind_congr fun found => ?_
  cases found with
  | some name => rfl
  | none => simp only [Build.reserveInline, hn.address, declareType_alike h hr hn]

include hn in
theorem resolveStated_alike (hint label : String) :
    r.resolveStated resolve n hint label = r'.resolveStated resolve m hint label := by
  simp only [resolveStated, resolveObject, hn.statedType, hn.get, hn.has, hr,
    resolveInline_alike h hr hn]

include hf hn in
theorem resolveStep_alike (hint : String) :
    r.resolveStep resolve n hint = r'.resolveStep resolve m hint := by
  simp only [resolveStep, hn.isNull, hn.has, hn.get, hn.stripLayer,
    resolveReference_alike h hr hf, resolveInline_alike h hr hn, resolveStated_alike h hr hn]
  split_ifs
  · rfl
  · refine bind_congr fun isReference => ?_
    split_ifs
    · rfl
    · refine bind_congr fun layer => ?_
      cases layer with
      | none => rfl
      | some inner => exact (h.unwrap (.refl inner)).lift_bind_eq fun a b hab => hf hint hab

include hn in
/-- Schemas that are alike are resolved in the same way in similar documents. -/
theorem resolveWithin_alike (fuel : Nat) (hint : String) :
    r.resolveWithin fuel n hint = r'.resolveWithin fuel m hint := by
  induction fuel generalizing n m hint with
  | zero => rfl
  | succ fuel ih =>
    have hsame : r.resolveWithin fuel = r'.resolveWithin fuel := by
      funext a hint
      exact ih (.refl a) hint
    rw [resolveWithin, resolveWithin, ← hsame]
    refine resolveStep_alike h hr hn (fun a b hint hab => ?_) hint
    rw [ih hab hint, hsame]

include hn in
theorem resolve_alike (hint : String) : r.resolve n hint = r'.resolve m hint := by
  rw [resolve, resolve, stepBound, stepBound, h.size]
  exact resolveWithin_alike h hr hn _ hint

end Resolver

end ServiceContract
