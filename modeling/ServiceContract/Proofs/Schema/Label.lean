import ServiceContract.Proofs.Schema.Form

/-!
# Labels of schemas

A schema is read with a label, which names it in faults. The label has no other effect: whatever is
read without a fault under one label is read alike under every other one.

## Main definitions

* `Agrees`: two results of which the second one is the first one wherever that is no fault.

## Main results

* `Resolver.form_agrees`, `Resolver.blueprint_agrees`: forms and blueprints under two labels.
-/

namespace ServiceContract

/-- Whenever the first result is no fault, the second one is the same. -/
def Agrees {α : Type} (x y : Except Fault α) : Prop :=
  ∀ a, x = .ok a → y = .ok a

namespace Agrees

variable {α β : Type}

theorem refl (x : Except Fault α) : Agrees x x := fun _ h => h

theorem error (fault : Fault) (y : Except Fault α) : Agrees (.error fault) y := by
  rintro a ⟨⟩

theorem bind {x y : Except Fault α} {k l : α → Except Fault β} (h : Agrees x y)
    (hk : ∀ a, Agrees (k a) (l a)) : Agrees (x >>= k) (y >>= l) := by
  intro b hb
  cases x with
  | error fault => cases hb
  | ok a =>
    rw [h a rfl]
    exact hk a b hb

theorem bind_right {x : Except Fault α} {k l : α → Except Fault β}
    (hk : ∀ a, Agrees (k a) (l a)) : Agrees (x >>= k) (x >>= l) :=
  (refl x).bind hk

theorem ite {c : Prop} [Decidable c] {x y x' y' : Except Fault α} (h : Agrees x y)
    (h' : Agrees x' y') : Agrees (if c then x else x') (if c then y else y') := by
  split_ifs
  · exact h
  · exact h'

end Agrees

namespace Node

variable {schema : Node} {keyword label label' : String}

theorem onlyAlternative_agrees :
    Agrees (schema.onlyAlternative keyword label) (schema.onlyAlternative keyword label') := by
  refine .bind_right fun branches => ?_
  rcases branches with _ | ⟨branch, _ | _⟩
  · exact .error _ _
  · exact .refl _
  · exact .error _ _

theorem stripLayer_agrees : Agrees (schema.stripLayer label) (schema.stripLayer label') := by
  refine .bind_right fun isReference => .ite (.refl _) ?_
  refine .bind_right fun hasMembers => .ite (.refl _) ?_
  refine .bind_right fun hasOneOf => .ite (.bind onlyAlternative_agrees fun _ => .refl _) ?_
  exact .bind_right fun hasAnyOf =>
    .ite (.bind onlyAlternative_agrees fun _ => .refl _) (.refl _)

theorem unwrapWithin_agrees (fuel : Nat) (schema : Node) :
    Agrees (schema.unwrapWithin label fuel) (schema.unwrapWithin label' fuel) := by
  induction fuel generalizing schema with
  | zero => exact .refl _
  | succ fuel ih =>
    refine .bind stripLayer_agrees fun layer => ?_
    cases layer with
    | none => exact .refl _
    | some inner => exact ih inner

theorem statedType_agrees : Agrees (schema.statedType label) (schema.statedType label') := by
  refine .bind_right fun type => .ite (.refl _) (.bind_right fun items => ?_)
  split
  · exact .refl _
  · exact .refl _
  · exact .bind_right fun _ => .error _ _

theorem isObjectLike_agrees : Agrees (schema.isObjectLike label) (schema.isObjectLike label') :=
  .bind_right fun _ => .ite (.refl _) (.bind statedType_agrees fun _ => .refl _)

end Node

namespace Document

variable {doc : Document} {label label' : String}

theorem memberShape_agrees {flatten flatten' : Node → Except Fault Shape}
    (h : ∀ n, Agrees (flatten n) (flatten' n)) (schema member : Node) :
    Agrees (doc.memberShape flatten label schema member)
      (doc.memberShape flatten' label' schema member) := by
  refine .bind_right fun part => .bind_right fun hasMembers => .ite (h part) ?_
  exact .bind Node.isObjectLike_agrees fun _ => .ite (.refl _) (.error _ _)

theorem mergeMembers_agrees {flatten flatten' : Node → Except Fault Shape}
    (h : ∀ n, Agrees (flatten n) (flatten' n)) (schema : Node) (shape : Shape)
    (members : List Node) :
    Agrees (doc.mergeMembers flatten label schema shape members)
      (doc.mergeMembers flatten' label' schema shape members) := by
  induction members generalizing shape with
  | nil => exact .refl _
  | cons member members ih =>
    exact .bind (memberShape_agrees h schema member) fun part => ih _

theorem flattenWithin_agrees (fuel : Nat) (schema : Node) :
    Agrees (doc.flattenWithin label fuel schema) (doc.flattenWithin label' fuel schema) := by
  induction fuel generalizing schema with
  | zero => exact .refl _
  | succ fuel ih =>
    exact .bind_right fun value => .bind_right fun members =>
      mergeMembers_agrees ih schema _ _

end Document

namespace Resolver

variable {r : Resolver} {schema : Node} {label label' : String}

theorem statedForm_agrees : Agrees (r.statedForm schema label) (r.statedForm schema label') := by
  refine .bind Node.statedType_agrees fun type => .ite (.refl _) ?_
  refine .bind_right fun properties => .ite (.refl _) (.ite (.refl _) ?_)
  refine .bind_right fun format => .bind_right fun found => ?_
  cases found with
  | none => exact .bind_right fun _ => .error _ _
  | some name => exact .refl _

/-- What a schema asks for does not depend on its label. -/
theorem form_agrees : Agrees (r.form schema label) (r.form schema label') := by
  refine .ite (.refl _) (.bind_right fun isReference => .ite (.refl _) ?_)
  refine .bind Node.stripLayer_agrees fun layer => ?_
  cases layer with
  | some inner => exact .bind (Node.unwrapWithin_agrees _ _) fun _ => .refl _
  | none =>
    refine .bind_right fun hasMembers => .ite (.refl _) ?_
    refine .bind_right fun hasNot => .ite (.error _ _) ?_
    exact .bind_right fun hasEnum => .ite (.refl _) statedForm_agrees

/-- What a declaration is made from does not depend on its name. -/
theorem blueprint_agrees : Agrees (r.blueprint schema label) (r.blueprint schema label') := by
  refine .bind_right fun value => .bind_right fun description => .bind_right fun hasEnum => ?_
  refine .ite (.refl _) (.bind ?_ fun _ => .refl _)
  exact .bind_right fun hasMembers => .ite (Document.flattenWithin_agrees _ _) (.refl _)

end Resolver

end ServiceContract
