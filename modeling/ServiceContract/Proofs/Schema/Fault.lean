import ServiceContract.Proofs.Document.Fault
import ServiceContract.Proofs.Schema.Form

/-!
# Faults of resolution

What a schema asks for, what a reference leads to and what a declaration is made from are read off
the document. These readings fail with faults of reading, and besides only as the unwrapping of a
schema and the flattening of its `allOf` do, which follow references. So a resolution fails with
faults of reading and, if it has no end, with that fault.

## Main definitions

* `Build.Fails`: every fault of a step, from whatever session, has a property.

## Main results

* `ReadingFaults.form`, `ReadingFaults.target`, `ReadingFaults.blueprint`: what is read from a
  document.
* `ReadingFaults.resolve_fails`: the faults of a resolution.
-/

namespace ServiceContract

namespace ReadingFaults

variable {P : Fault → Prop} (hP : ReadingFaults P)
include hP

/-! ### Members of enumerations -/

theorem enumMembersAfter (seen : List String) (values : List Value) :
    FailsWith P (enumMembersAfter seen values) := by
  induction values generalizing seen with
  | nil => exact .ok _
  | cons value values ih =>
    exact .ite (fun _ => ih seen) fun _ => (hP.plainText value).bind fun _ _ =>
      (ih _).bind fun _ _ => .ok _

/-! ### Shapes -/

omit hP in
theorem keepIf {test : Node → Except Fault Bool} (ht : ∀ n, FailsWith P (test n)) (ns : List Node) :
    FailsWith P (Node.keepIf test ns) := by
  induction ns with
  | nil => exact .ok _
  | cons n ns ih => exact (ht n).bind fun _ _ => ih.bind fun _ _ => .ok _

theorem shapedMembers (schema : Node) : FailsWith P schema.shapedMembers :=
  (hP.get schema _).bind fun members _ => (hP.items members).bind fun ns _ =>
    keepIf (fun n => hP.hasAny _ n) ns

theorem onlyAlternative (schema : Node) (keyword label : String) :
    FailsWith P (schema.onlyAlternative keyword label) := by
  have halternatives : FailsWith P (schema.alternatives keyword) :=
    (hP.get schema _).bind fun branches _ => (hP.items branches).bind fun ns _ =>
      keepIf (fun n => ((hP.get n _).bind fun _ _ => .ok _).bind fun _ _ => .ok _) ns
  refine halternatives.bind fun branches _ => ?_
  split
  · exact .ok _
  · exact .error (hP.unsupported _ _)

theorem stripLayer (schema : Node) (label : String) : FailsWith P (schema.stripLayer label) := by
  refine (hP.has schema _).bind fun _ _ => .ite (fun _ => .ok _) fun _ => ?_
  refine (hP.has schema _).bind fun _ _ => .ite (fun _ => ?_) fun _ => ?_
  · refine (hP.get schema _).bind fun _ _ => .ite (fun _ => .ok _) fun _ => ?_
    refine (hP.shapedMembers schema).bind fun members _ => ?_
    split
    · exact .ok _
    · exact .ok _
    · exact .ok _
  refine (hP.has schema _).bind fun _ _ => .ite (fun _ => ?_) fun _ => ?_
  · exact (hP.onlyAlternative schema _ label).bind fun _ _ => .ok _
  refine (hP.has schema _).bind fun _ _ => .ite (fun _ => ?_) fun _ => .ok _
  exact (hP.onlyAlternative schema _ label).bind fun _ _ => .ok _

theorem statedType (schema : Node) (label : String) : FailsWith P (schema.statedType label) := by
  refine (hP.get schema _).bind fun type _ => .ite (fun _ => .ok _) fun _ => ?_
  refine (hP.items type).bind fun types _ => ?_
  split
  · exact .ok _
  · exact .ok _
  · exact (hP.literalText _).bind fun _ _ => .error (hP.unsupported _ _)

theorem declaresType (schema : Node) : FailsWith P schema.declaresType := by
  refine (hP.has schema _).bind fun _ _ => .ite (fun _ => .ok _) fun _ => ?_
  refine (hP.hasAny _ schema).bind fun _ _ => .ite (fun _ => .ok _) fun _ => ?_
  exact (hP.get schema _).bind fun _ _ => .ok _

theorem isObjectLike (schema : Node) (label : String) :
    FailsWith P (schema.isObjectLike label) := by
  refine (hP.hasAny _ schema).bind fun _ _ => .ite (fun _ => .ok _) fun _ => ?_
  exact (hP.statedType schema label).bind fun _ _ => .ok _

theorem propertyEntries (properties : Node) : FailsWith P (Shape.propertyEntries properties) := by
  refine .ite (fun _ => .ok _) fun _ => ?_
  split
  · exact hP.entries _
  · refine (hP.items _).bind fun pairs _ => .mapM (fun pair => ?_) pairs
    refine (hP.items pair).bind fun parts _ => ?_
    split
    · exact (hP.asScalar _).bind fun _ _ => .ok _
    · exact .error hP.malformed

theorem ofMember (schema : Node) : FailsWith P (Shape.ofMember schema) :=
  (hP.get schema _).bind fun properties _ => (hP.propertyEntries properties).bind fun _ _ =>
    (hP.get schema _).bind fun required _ => (hP.itemsIfAny required).bind fun _ _ => .ok _

theorem ofObject (schema : Node) : FailsWith P (Shape.ofObject schema) :=
  (hP.get schema _).bind fun required _ => (hP.itemsIfAny required).bind fun _ _ =>
    (hP.get schema _).bind fun properties _ => (hP.entriesIfAny properties).bind fun _ _ => .ok _

theorem requiredNames (ns : List Node) : FailsWith P (Resolver.requiredNames ns) := by
  induction ns with
  | nil => exact .ok _
  | cons n ns ih => exact (hP.asScalar n).bind fun _ _ => ih.bind fun _ _ => .ok _

theorem lookup (table : PrimitiveTable) (type format : Node) :
    FailsWith P (table.lookup type format) := by
  refine .ite (fun _ => .error hP.malformed) fun _ => ?_
  split
  · exact .ok _
  · exact .ok _
  · exact .ok _

/-- An `allOf` is merged with the faults of its members. -/
theorem memberShape {doc : Document} {flatten : Node → Except Fault Shape} {label : String}
    {schema member : Node} (hdereference : FailsWith P (doc.dereference (doc.size + 2) member))
    (hflatten : ∀ part, doc.dereference (doc.size + 2) member = .ok part →
      part.has "allOf" = .ok true →
      part.address ≠ schema.address → FailsWith P (flatten part)) :
    FailsWith P (doc.memberShape flatten label schema member) := by
  refine hdereference.bind fun part hpart => (hP.has part _).bind fun hasMembers hhas => ?_
  refine .ite (fun hnested => ?_) fun _ => ?_
  · rw [Bool.and_eq_true, bne_iff_ne] at hnested
    obtain ⟨rfl, hne⟩ := hnested
    exact hflatten part hpart hhas hne
  refine (hP.isObjectLike part label).bind fun _ _ => .ite (fun _ => hP.ofMember part) fun _ => ?_
  exact .error (hP.unsupported _ _)

omit hP in
theorem mergeMembers {doc : Document} {flatten : Node → Except Fault Shape} {label : String}
    {schema : Node} {members : List Node}
    (h : ∀ member ∈ members, FailsWith P (doc.memberShape flatten label schema member))
    (shape : Shape) :
    FailsWith P (doc.mergeMembers flatten label schema shape members) := by
  induction members generalizing shape with
  | nil => exact .ok _
  | cons member members ih =>
    refine (h member List.mem_cons_self).bind fun part _ => ih (fun m hm => ?_) _
    exact h m (List.mem_cons_of_mem _ hm)

/-! ### Forms, targets and blueprints -/

variable {r : Resolver}

theorem objectForm (schema : Node) : FailsWith P (r.objectForm schema) := by
  refine (hP.get schema _).bind fun values _ => ?_
  split
  · exact .ok _
  · exact .ok _

theorem statedForm (schema : Node) (label : String) : FailsWith P (r.statedForm schema label) := by
  refine (hP.statedType schema label).bind fun type _ => .ite (fun _ => ?_) fun _ => ?_
  · exact (hP.get schema _).bind fun _ _ => .ok _
  refine (hP.has schema _).bind fun _ _ => .ite (fun _ => ?_) fun _ =>
    .ite (fun _ => .ok _) fun _ => ?_
  · exact (hP.get schema _).bind fun _ _ => .ite (fun _ => .ok _) fun _ => hP.objectForm schema
  refine (hP.get schema _).bind fun format _ => (hP.lookup _ type format).bind fun found _ => ?_
  split
  · exact .ok _
  · exact (hP.literalText _).bind fun _ _ => .error (hP.unsupported _ _)

/-- What a schema asks for is read with the faults of unwrapping. -/
theorem form {schema : Node} {label : String}
    (hunwrap : ∀ inner, schema.stripLayer label = .ok (some inner) →
      FailsWith P (r.doc.unwrap inner label)) : FailsWith P (r.form schema label) := by
  refine .ite (fun _ => .ok _) fun _ => ?_
  refine (hP.has schema _).bind fun _ _ => .ite (fun _ => ?_) fun _ => ?_
  · exact (hP.get schema _).bind fun value _ => (hP.asText value).bind fun _ _ => .ok _
  refine (hP.stripLayer schema label).bind fun layer hlayer => ?_
  cases layer with
  | some inner => exact (hunwrap inner hlayer).bind fun _ _ => .ok _
  | none =>
    refine (hP.has schema _).bind fun _ _ => .ite (fun _ => .ok _) fun _ => ?_
    refine (hP.has schema _).bind fun _ _ => .ite (fun _ => .error (hP.unsupported _ _)) fun _ => ?_
    refine (hP.has schema _).bind fun _ _ => .ite (fun _ => .ok _) fun _ =>
      hP.statedForm schema label

/-- What a reference leads to is read with the faults of unwrapping. -/
theorem target {ref : String} (hunwrap : ∀ n, r.doc.resolve ref = .ok n →
      FailsWith P (r.doc.unwrap n (referenceName ref))) : FailsWith P (r.target ref) :=
  (hP.resolve r.doc ref).bind fun n hn => (hunwrap n hn).bind fun schema _ =>
    (hP.declaresType schema).bind fun _ _ => .ok _

/-- What a declaration is made from is read with the faults of flattening. -/
theorem blueprint {schema : Node} {name : String}
    (hflatten : schema.has "allOf" = .ok true → FailsWith P (r.doc.flatten schema name)) :
    FailsWith P (r.blueprint schema name) := by
  refine (hP.get schema _).bind fun value _ => (hP.trimmedText value).bind fun _ _ => ?_
  refine (hP.has schema _).bind fun _ _ => .ite (fun _ => ?_) fun _ => ?_
  · have htype : FailsWith P (r.enumValueType schema) :=
      (hP.get schema _).bind fun _ _ => (hP.get schema _).bind fun _ _ =>
        (hP.lookup _ _ _).bind fun _ _ => .ok _
    refine htype.bind fun _ _ => (hP.get schema _).bind fun values _ => ?_
    exact (hP.items values).bind fun _ _ => (hP.enumMembersAfter [] _).bind fun _ _ => .ok _
  · have hshape : FailsWith P (r.shapeOf schema name) := by
      refine (hP.has schema _).bind fun hasMembers hhas => .ite (fun h => ?_) fun _ =>
        hP.ofObject schema
      exact hflatten (h ▸ hhas)
    exact hshape.bind fun shape _ => (hP.requiredNames shape.required).bind fun _ _ => .ok _

end ReadingFaults

/-! ### Steps -/

namespace Build

variable {α β : Type} {P : Fault → Prop}

/-- Every fault of the step, from whatever session, has the property `P`. -/
def Fails (P : Fault → Prop) (m : Build α) : Prop :=
  ∀ s, FailsWith P (m s).1

/-- From a session a composed step fails as its parts do. -/
theorem failsWith_bind {m : Build α} {k : α → Build β} {s : Session} (hm : FailsWith P (m s).1)
    (hk : ∀ {a t}, m s = (.ok a, t) → FailsWith P (k a t).1) : FailsWith P ((m >>= k) s).1 := by
  rw [bind_apply]
  rcases hrun : m s with ⟨fault | a, t⟩
  · rw [hrun] at hm
    exact .error (hm rfl)
  · exact hk hrun

theorem failsWith_lift_bind {x : Except Fault α} {k : α → Build β} {s : Session}
    (hx : FailsWith P x) (hk : ∀ {a}, x = .ok a → FailsWith P (k a s).1) :
    FailsWith P (((liftM x : Build α) >>= k) s).1 := by
  cases x with
  | error fault => exact .error (hx rfl)
  | ok a => exact hk rfl

namespace Fails

theorem pure (a : α) : Fails P (Pure.pure a) := fun _ => .ok a

theorem fail {fault : Fault} (h : P fault) :
    Fails P (Build.fail fault : Build α) := fun _ => .error h

theorem bind {m : Build α} {k : α → Build β} (hm : Fails P m) (hk : ∀ a, Fails P (k a)) :
    Fails P (m >>= k) :=
  fun s => failsWith_bind (hm s) fun _ => hk _ _

theorem lift_bind {x : Except Fault α} {k : α → Build β} (hx : FailsWith P x)
    (hk : ∀ a, Fails P (k a)) :
    Fails P ((liftM x : Build α) >>= k) :=
  bind (fun _ => hx) hk

theorem read (f : Session → α) : Fails P (Build.read f) := fun _ => .ok _

theorem modify (f : Session → Session) : Fails P (Build.modify f) := fun _ => .ok _

theorem claim (name : String) : Fails P (Build.claim name) :=
  (read _).bind fun _ => (modify _).bind fun _ => pure _

theorem reserveReference (ref : String) : Fails P (Build.reserveReference ref) := by
  refine (read _).bind fun components => ?_
  cases componentName? components ref with
  | some name => exact (modify _).bind fun _ => pure _
  | none => exact (claim _).bind fun _ => (modify _).bind fun _ => pure _

theorem reserveInline (schema : Node) (hint : String) : Fails P (Build.reserveInline schema hint) :=
  (claim _).bind fun _ => (modify _).bind fun _ => pure _

theorem declare (d : Declaration) : Fails P (Build.declare d) :=
  (modify _).bind fun _ => modify _

theorem whileResolving {m : Build α} (hm : Fails P m) (ref : String) :
    Fails P (Build.whileResolving ref m) := by
  intro s
  rw [whileResolving_apply]
  exact hm _

end Fails

end Build

/-! ### Resolution -/

namespace ReadingFaults

open Build

variable {P : Fault → Prop} (hP : ReadingFaults P) (hendless : P .endless)
include hP hendless

theorem unwrap (doc : Document) (schema : Node) (label : String) :
    FailsWith P (doc.unwrap schema label) := by
  have hwithin (fuel : Nat) (schema : Node) : FailsWith P (schema.unwrapWithin label fuel) := by
    induction fuel generalizing schema with
    | zero => exact .error hendless
    | succ fuel ih =>
      refine (hP.stripLayer schema label).bind fun layer _ => ?_
      cases layer with
      | none => exact .ok _
      | some inner => exact ih inner
  exact hwithin _ schema

theorem flatten (doc : Document) (schema : Node) (label : String) :
    FailsWith P (doc.flatten schema label) := by
  have hdereference (fuel : Nat) (n : Node) : FailsWith P (doc.dereference fuel n) := by
    induction fuel generalizing n with
    | zero => exact .error hendless
    | succ fuel ih =>
      refine (hP.has n _).bind fun _ _ => .ite (fun _ => ?_) fun _ => .ok _
      refine (hP.get n _).bind fun value _ => (hP.asText value).bind fun ref _ => ?_
      exact (hP.resolve doc ref).bind fun target _ => ih target
  have hwithin (fuel : Nat) (schema : Node) :
      FailsWith P (doc.flattenWithin label fuel schema) := by
    induction fuel generalizing schema with
    | zero => exact .error hendless
    | succ fuel ih =>
      refine (hP.get schema _).bind fun value _ => (hP.items value).bind fun members _ => ?_
      refine mergeMembers (fun member _ => ?_) _
      exact hP.memberShape (hdereference _ member) fun part _ _ _ => ih part
  exact hwithin _ schema

section Step

variable {r : Resolver} {resolve : Node → String → Build TypeExpr}
  (hf : ∀ n hint, Fails P (resolve n hint))
include hf

omit hendless in
theorem resolveFields_fails (owner : String) (required : List Scalar)
    (properties : List (Scalar × Node)) :
    Fails P (Resolver.resolveFields resolve owner required properties) := by
  induction properties with
  | nil => exact .pure _
  | cons e properties ih =>
    refine .lift_bind (hP.asText _) fun wireName => .bind (hf _ _) fun type => ?_
    refine .lift_bind (hP.get _ _) fun value =>
      .lift_bind (hP.trimmedText value) fun description => ?_
    exact .bind ih fun fields => .pure _

theorem declareType_fails (schema : Node) (name : String) :
    Fails P (r.declareType resolve schema name) := by
  rw [Resolver.declareType_eq]
  refine .lift_bind (hP.blueprint fun _ => hP.flatten hendless _ _ _) fun blueprint => ?_
  cases blueprint with
  | enumeration => exact .declare _
  | record => exact .bind (hP.resolveFields_fails hf _ _ _) fun _ => .declare _

theorem resolveReference_fails (ref : String) : Fails P (r.resolveReference resolve ref) := by
  refine .bind (.read _) fun found => ?_
  cases found with
  | some type => exact .pure _
  | none =>
    refine .lift_bind (hP.resolve _ ref) fun node =>
      .lift_bind (hP.unwrap hendless _ _ _) fun target => ?_
    refine .lift_bind (hP.declaresType target) fun declares => ?_
    split_ifs
    · refine .bind (.reserveReference ref) fun name => ?_
      exact .bind (hP.declareType_fails hendless hf _ _) fun _ => .pure _
    · refine .bind (.read _) fun resolving => ?_
      split_ifs
      · exact .fail (hP.unsupported _ _)
      · exact .bind ((hf _ _).whileResolving ref) fun type => .bind (.modify _) fun _ => .pure _

theorem resolveInline_fails (schema : Node) (hint : String) :
    Fails P (r.resolveInline resolve schema hint) := by
  refine .bind (.read _) fun found => ?_
  cases found with
  | some name => exact .pure _
  | none =>
    refine .bind (.reserveInline _ _) fun name => ?_
    exact .bind (hP.declareType_fails hendless hf _ _) fun _ => .pure _

theorem resolveStep_fails (schema : Node) (hint : String) :
    Fails P (r.resolveStep resolve schema hint) := by
  rw [Resolver.resolveStep_eq]
  refine .lift_bind (hP.form fun _ _ => hP.unwrap hendless _ _ _) fun form => ?_
  cases form with
  | absent => exact .pure _
  | reference ref => exact hP.resolveReference_fails hendless hf ref
  | wrapper inner => exact hf inner hint
  | inline => exact hP.resolveInline_fails hendless hf schema hint
  | list items => exact .bind (hf _ _) fun _ => .pure _
  | map values => exact .bind (hf _ _) fun _ => .pure _
  | primitive name => exact .pure _

end Step

/-- A resolution fails with faults of reading, or it has no end. -/
theorem resolve_fails (r : Resolver) (schema : Node) (hint : String) :
    Fails P (r.resolve schema hint) := by
  have hwithin (fuel : Nat) (schema : Node) (hint : String) :
      Fails P (r.resolveWithin fuel schema hint) := by
    induction fuel generalizing schema hint with
    | zero => exact .fail hendless
    | succ fuel ih => exact hP.resolveStep_fails hendless ih schema hint
  exact hwithin _ schema hint

end ReadingFaults

end ServiceContract
