import ServiceContract.Proofs.Schema.Bound

/-!
# Bounds on resolution

Resolution has a bound on the number of steps inside one another. A larger bound changes nothing but
a resolution that is endless under the smaller one. The same holds for the size of a document, which
bounds how far references, wrappers, members and schemas are followed.

## Main definitions

* `Build.Outlasts`: a step does what another one does wherever that is not endless.
* `Document.resize`, `Resolver.resize`: a document or a resolver with another size.

## Main results

* `Resolver.form_resize`, `Resolver.target_resize`, `Resolver.blueprint_resize`: what schemas say in
  a document of a larger size.
* `Resolver.resolve_resize`: resolution in a document of a larger size.
* `Resolver.resolveWithin_outlasts`: resolutions under two bounds.
-/

namespace ServiceContract

namespace Build

variable {α β : Type}

/-- Wherever `m` is not endless, `m'` does the same. -/
def Outlasts (m m' : Build α) : Prop :=
  ∀ s, (m s).1 = .error .endless ∨ m' s = m s

/-- A step that is endless leaves some session behind. -/
theorem eq_of_endless {m : Build α} {s : Session} (h : (m s).1 = .error .endless) :
    m s = (.error .endless, (m s).2) :=
  Prod.ext h rfl

namespace Outlasts

theorem refl (m : Build α) : Outlasts m m := fun _ => .inr rfl

theorem bind {m m' : Build α} {k k' : α → Build β} (hm : Outlasts m m')
    (hk : ∀ a, Outlasts (k a) (k' a)) : Outlasts (m >>= k) (m' >>= k') := by
  intro s
  simp only [bind_apply]
  rcases hm s with hend | hsame
  · left
    rw [eq_of_endless hend]
  · rw [hsame]
    rcases m s with ⟨_ | a, t⟩
    · exact .inr rfl
    · exact hk a t

theorem bind_right {m : Build α} {k k' : α → Build β} (hk : ∀ a, Outlasts (k a) (k' a)) :
    Outlasts (m >>= k) (m >>= k') :=
  (refl m).bind hk

theorem whileResolving {m m' : Build α} (h : Outlasts m m') (ref : String) :
    Outlasts (Build.whileResolving ref m) (Build.whileResolving ref m') := by
  intro s
  rw [whileResolving_apply, whileResolving_apply]
  rcases h { s with resolving := ref :: s.resolving } with h | h
  · exact .inl h
  · exact .inr (by rw [h])

/-- Results under two bounds, followed by steps under two bounds. -/
theorem lift_bind {x y : Except Fault α} {k l : α → Build β} (h : Prolonged x y)
    (hk : ∀ a, Outlasts (k a) (l a)) :
    Outlasts ((liftM x : Build α) >>= k) ((liftM y : Build α) >>= l) := by
  rcases h with rfl | rfl
  · exact fun _ => .inl rfl
  · exact .bind_right hk

end Outlasts

end Build

namespace Document

/-- The document with another size. -/
def resize (size : Nat) (doc : Document) : Document :=
  { doc with size }

variable {doc : Document} {size : Nat}

/-! ### References, wrappers and members -/

theorem followFrom_resize (fuel : Nat) (seen : List String) (n : Node) :
    (doc.resize size).followFrom fuel seen n = doc.followFrom fuel seen n := by
  induction fuel generalizing seen n with
  | zero => rfl
  | succ fuel ih =>
    rw [followFrom, followFrom]
    simp only [ih]
    rfl

theorem dereference_resize (fuel : Nat) (n : Node) :
    (doc.resize size).dereference fuel n = doc.dereference fuel n := by
  induction fuel generalizing n with
  | zero => rfl
  | succ fuel ih =>
    rw [dereference, dereference]
    simp only [ih]
    rfl

variable (hsize : doc.size ≤ size)
include hsize

theorem follow_resize (n : Node) : Prolonged (doc.follow n) ((doc.resize size).follow n) := by
  rw [follow, follow, followFrom_resize]
  exact .of_le (fun fuel => followFrom_prolonged fuel [] n) (Nat.add_le_add_right hsize 2)

theorem unwrap_resize (n : Node) (label : String) :
    Prolonged (doc.unwrap n label) ((doc.resize size).unwrap n label) :=
  .of_le (fun fuel => Node.unwrapWithin_prolonged fuel n) (Nat.add_le_add_right hsize 2)

section Members

variable {flatten flatten' : Node → Except Fault Shape} {label : String} {schema : Node}
  (hf : ∀ n, Prolonged (flatten n) (flatten' n))
include hf

theorem memberShape_resize (member : Node) :
    Prolonged (doc.memberShape flatten label schema member)
      ((doc.resize size).memberShape flatten' label schema member) := by
  have hpart : Prolonged (doc.dereference (doc.size + 2) member)
      ((doc.resize size).dereference (size + 2) member) := by
    rw [dereference_resize]
    exact .of_le (fun fuel => dereference_prolonged fuel member) (Nat.add_le_add_right hsize 2)
  refine hpart.bind fun part => .bind_right fun hasMembers => ?_
  split_ifs
  · exact hf part
  · exact .refl _

theorem mergeMembers_resize (shape : Shape) (members : List Node) :
    Prolonged (doc.mergeMembers flatten label schema shape members)
      ((doc.resize size).mergeMembers flatten' label schema shape members) := by
  induction members generalizing shape with
  | nil => exact .refl _
  | cons member members ih => exact (memberShape_resize hsize hf member).bind fun part => ih _

end Members

theorem flattenWithin_resize (label : String) {fuel more : Nat} (h : fuel ≤ more) (n : Node) :
    Prolonged (doc.flattenWithin label fuel n) ((doc.resize size).flattenWithin label more n) := by
  induction fuel generalizing more n with
  | zero => exact .inl rfl
  | succ fuel ih =>
    obtain ⟨more, rfl⟩ := Nat.exists_eq_add_of_le' (Nat.one_le_of_lt h)
    refine .bind_right fun value => .bind_right fun members => ?_
    exact mergeMembers_resize hsize (ih (Nat.le_of_succ_le_succ h)) _ _

end Document

namespace Resolver

/-- The resolver with another size of the document. -/
def resize (size : Nat) (r : Resolver) : Resolver :=
  { r with doc := r.doc.resize size }

variable {r : Resolver} {size : Nat} (hsize : r.doc.size ≤ size)
include hsize

/-! ### Forms, targets and blueprints -/

theorem form_resize (schema : Node) (label : String) :
    Prolonged (r.form schema label) ((r.resize size).form schema label) := by
  rw [form, form]
  split_ifs
  · exact .refl _
  refine .bind_right fun isReference => ?_
  split_ifs
  · exact .refl _
  refine .bind_right fun layer => ?_
  cases layer with
  | some inner => exact (Document.unwrap_resize hsize inner label).bind fun _ => .refl _
  | none => exact .refl _

theorem target_resize (ref : String) : Prolonged (r.target ref) ((r.resize size).target ref) :=
  .bind_right fun node => (Document.unwrap_resize hsize node _).bind fun _ => .refl _

theorem blueprint_resize (schema : Node) (name : String) :
    Prolonged (r.blueprint schema name) ((r.resize size).blueprint schema name) := by
  have hshape : Prolonged (r.shapeOf schema name) ((r.resize size).shapeOf schema name) := by
    refine .bind_right fun hasMembers => ?_
    split_ifs
    · exact Document.flattenWithin_resize hsize name (Nat.add_le_add_right hsize 2) schema
    · exact .refl _
  refine .bind_right fun value => .bind_right fun description => .bind_right fun hasEnum => ?_
  split_ifs
  · exact .refl _
  · exact hshape.bind fun _ => .refl _

/-! ### Resolution -/

section Step

open Build

variable {resolve resolve' : Node → String → Build TypeExpr}
  (hf : ∀ n hint, Outlasts (resolve n hint) (resolve' n hint))
include hf

omit hsize in
theorem resolveFields_outlasts (owner : String) (required : List Scalar)
    (properties : List (Scalar × Node)) :
    Outlasts (resolveFields resolve owner required properties)
      (resolveFields resolve' owner required properties) := by
  induction properties with
  | nil => exact .refl _
  | cons e properties ih =>
    refine .bind_right fun wireName => .bind (hf _ _) fun type => ?_
    exact .bind_right fun value => .bind_right fun text => .bind ih fun fields => .refl _

theorem declareType_resize (schema : Node) (name : String) :
    Outlasts (r.declareType resolve schema name)
      ((r.resize size).declareType resolve' schema name) := by
  rw [declareType_eq, declareType_eq]
  refine .lift_bind (blueprint_resize hsize schema name) fun blueprint => ?_
  cases blueprint with
  | enumeration => exact .refl _
  | record => exact .bind (resolveFields_outlasts hf _ _ _) fun fields => .refl _

theorem resolveReference_resize (ref : String) :
    Outlasts (r.resolveReference resolve ref) ((r.resize size).resolveReference resolve' ref) := by
  intro s
  cases hs : s.references.lookup ref with
  | some type => exact .inr (by rw [resolveReference_cached hs, resolveReference_cached hs])
  | none =>
    rw [resolveReference_eq hs, resolveReference_eq hs]
    refine Outlasts.lift_bind (target_resize hsize ref) (fun found => ?_) s
    obtain ⟨schema, declares⟩ := found
    dsimp only
    split_ifs
    · exact .bind_right fun name => .bind (declareType_resize hsize hf _ _) fun _ => .refl _
    · refine .bind_right fun resolving => ?_
      split_ifs
      · exact .refl _
      · exact .bind ((hf _ _).whileResolving ref) fun type => .refl _

theorem resolveInline_resize (schema : Node) (hint : String) :
    Outlasts (r.resolveInline resolve schema hint)
      ((r.resize size).resolveInline resolve' schema hint) := by
  refine .bind_right fun found => ?_
  cases found with
  | some name => exact .refl _
  | none => exact .bind_right fun name => .bind (declareType_resize hsize hf _ _) fun _ => .refl _

theorem resolveStep_resize (schema : Node) (hint : String) :
    Outlasts (r.resolveStep resolve schema hint)
      ((r.resize size).resolveStep resolve' schema hint) := by
  rw [resolveStep_eq, resolveStep_eq]
  refine .lift_bind (form_resize hsize schema _) fun form => ?_
  cases form with
  | absent => exact .refl _
  | reference ref => exact resolveReference_resize hsize hf ref
  | wrapper inner => exact hf inner hint
  | inline => exact resolveInline_resize hsize hf schema hint
  | list items => exact .bind (hf _ _) fun type => .refl _
  | map values => exact .bind (hf _ _) fun type => .refl _
  | primitive name => exact .refl _

end Step

theorem resolveWithin_resize {fuel more : Nat} (h : fuel ≤ more) (schema : Node) (hint : String) :
    Build.Outlasts (r.resolveWithin fuel schema hint)
      ((r.resize size).resolveWithin more schema hint) := by
  induction fuel generalizing more schema hint with
  | zero => exact fun _ => .inl rfl
  | succ fuel ih =>
    obtain ⟨more, rfl⟩ := Nat.exists_eq_add_of_le' (Nat.one_le_of_lt h)
    exact resolveStep_resize hsize (fun n hint => ih (Nat.le_of_succ_le_succ h) n hint) schema hint

/-- A larger size changes nothing but what is endless. -/
theorem resolve_resize (schema : Node) (hint : String) :
    Build.Outlasts (r.resolve schema hint) ((r.resize size).resolve schema hint) := by
  refine resolveWithin_resize hsize (Nat.mul_le_mul ?_ ?_) schema hint
  · exact Nat.add_le_add_right (Nat.mul_le_mul_left 3 hsize) 3
  · exact Nat.add_le_add_right hsize 3

omit hsize in
/-- A larger bound changes nothing but what is endless under the smaller one. -/
theorem resolveWithin_outlasts {fuel more : Nat} (h : fuel ≤ more) (schema : Node) (hint : String) :
    Build.Outlasts (r.resolveWithin fuel schema hint) (r.resolveWithin more schema hint) :=
  resolveWithin_resize (Nat.le_refl r.doc.size) h schema hint

end Resolver

end ServiceContract
