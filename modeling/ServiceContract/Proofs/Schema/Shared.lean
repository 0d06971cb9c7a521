import ServiceContract.Proofs.Document.Shared
import ServiceContract.Proofs.Schema.Bound
import ServiceContract.Proofs.Schema.Termination

/-!
# Schemas of documents that share nodes

A schema that two documents have in common, and that leads to nothing but what they have in common,
has the same form in both, refers to the same target and is declared from the same blueprint. So it
resolves in the same way in both, also where the resolution fails. The two documents may be of
different sizes, and so may be the bounds on resolution; that makes no difference since both are
above what the budget of the session and the size of the schema ask for.

## Main definitions

* `Resolver.Shares`: resolvers whose documents have nodes in common.
* `Resolver.SameWithin`: steps that do the same from every session with at most a given budget.

## Main results

* `Resolver.Shares.form`, `Resolver.Shares.target`, `Resolver.Shares.blueprint`: what schemas say.
* `Resolver.Shares.resolveWithin`: resolution under large bounds.
* `Resolver.Shares.resolve`: resolution.
-/

namespace ServiceContract

open Build

namespace Document.Shares

variable {doc doc' : Document} {P : Node → Prop} (h : Shares P doc doc') {n schema : Node}
  {label : String}
include h

/-! ### Wrappers and members -/

theorem unwrap (hn : P n) (label : String) : doc.unwrap n label = doc'.unwrap n label := by
  have hbounds := h.tree.bounds (h.part hn)
  have hbounds' := h.tree'.bounds (h.part' hn)
  have hends {size : Nat} (hsize : n.size ≤ size) :
      n.unwrapWithin label (size + 2) = n.unwrapWithin label (n.size + 1) :=
    Node.unwrapWithin_eq hbounds.isTree (Nat.lt_succ_self _) (by omega)
  rw [Document.unwrap, Document.unwrap, hends hbounds.size, hends hbounds'.size]

theorem dereferenceWithin (fuel : Nat) (hn : P n) :
    doc.dereference fuel n = doc'.dereference fuel n := by
  induction fuel generalizing n with
  | zero => rfl
  | succ fuel ih =>
    rw [Document.dereference, Document.dereference]
    refine bind_congr fun isReference => ?_
    split_ifs
    · refine except_bind_congr rfl fun value hvalue => except_bind_congr rfl fun ref href => ?_
      exact except_bind_congr (h.resolve hn hvalue href) fun target htarget =>
        ih (h.closed.refer hn hvalue href htarget)
    · rfl

theorem dereference (hn : P n) :
    doc.dereference (doc.size + 2) n = doc'.dereference (doc'.size + 2) n := by
  have hleft : doc.size + 2 ≤ max doc.size doc'.size + 2 :=
    Nat.add_le_add_right (Nat.le_max_left _ _) 2
  have hright : doc'.size + 2 ≤ max doc.size doc'.size + 2 :=
    Nat.add_le_add_right (Nat.le_max_right _ _) 2
  rw [h.tree.counted.dereference_eq (h.part hn) (Nat.le_refl _) hleft, h.dereferenceWithin _ hn,
    h.tree'.counted.dereference_eq (h.part' hn) hright (Nat.le_refl _)]

theorem memberShape {flatten flatten' : Node → Except Fault Shape} {member : Node}
    (hf : ∀ {n}, P n → flatten n = flatten' n) (hm : P member) :
    doc.memberShape flatten label schema member =
      doc'.memberShape flatten' label schema member := by
  refine except_bind_congr (h.dereference hm) fun part hpart => ?_
  rw [hf (h.closed.dereference hm hpart)]

theorem mergeMembers {flatten flatten' : Node → Except Fault Shape} {shape : Shape}
    {members : List Node} (hf : ∀ {n}, P n → flatten n = flatten' n) (hm : ∀ m ∈ members, P m) :
    doc.mergeMembers flatten label schema shape members =
      doc'.mergeMembers flatten' label schema shape members := by
  induction members generalizing shape with
  | nil => rfl
  | cons member members ih =>
    rw [Document.mergeMembers, Document.mergeMembers,
      h.memberShape hf (hm member List.mem_cons_self)]
    exact bind_congr fun part => ih fun m hmem => hm m (List.mem_cons_of_mem _ hmem)

theorem flattenWithin (fuel : Nat) (hn : P n) :
    doc.flattenWithin label fuel n = doc'.flattenWithin label fuel n := by
  induction fuel generalizing n with
  | zero => rfl
  | succ fuel ih =>
    rw [Document.flattenWithin, Document.flattenWithin]
    refine except_bind_congr rfl fun value hvalue =>
      except_bind_congr rfl fun members hmembers => ?_
    refine h.mergeMembers ih fun m hm => ?_
    rcases List.mem_append.mp hm with hm | hm
    · exact h.closed.items (h.closed.get hn hvalue) hmembers hm
    · exact List.mem_singleton.mp hm ▸ hn

theorem flatten (hn : P n) (label : String) : doc.flatten n label = doc'.flatten n label := by
  have hleft : doc.size + 2 ≤ max doc.size doc'.size + 2 :=
    Nat.add_le_add_right (Nat.le_max_left _ _) 2
  have hright : doc'.size + 2 ≤ max doc.size doc'.size + 2 :=
    Nat.add_le_add_right (Nat.le_max_right _ _) 2
  rw [Document.flatten, Document.flatten, h.tree.counted.flattenWithin_eq (h.part hn)
    (Nat.le_refl _) hleft, h.flattenWithin _ hn,
    h.tree'.counted.flattenWithin_eq (h.part' hn) hright (Nat.le_refl _)]

end Document.Shares

namespace Resolver

/-! ### Forms, targets and blueprints -/

/-- The documents of the resolvers have the nodes with the property `P` in common, and their types
have the same names. -/
structure Shares (P : Node → Prop) (r r' : Resolver) : Prop where
  doc : r.doc.Shares P r'.doc
  primitives : r.primitives = r'.primitives

variable {r r' : Resolver} {P : Node → Prop} {n schema : Node}

namespace Shares

variable (h : Shares P r r')
include h

theorem symm : Shares P r' r where
  doc := h.doc.symm
  primitives := h.primitives.symm

theorem form (hn : P n) (label : String) : r.form n label = r'.form n label := by
  rw [Resolver.form, Resolver.form]
  split_ifs
  · rfl
  refine bind_congr fun isReference => ?_
  split_ifs
  · rfl
  refine except_bind_congr rfl fun layer hlayer => ?_
  cases layer with
  | some inner =>
    dsimp only
    rw [h.doc.unwrap (h.doc.closed.stripLayer hn hlayer)]
  | none => rw [statedForm, statedForm, objectForm, objectForm, h.primitives]

/-- The target of a reference that a schema is. -/
theorem target {label ref : String} (hn : P n) (hform : r.form n label = .ok (.reference ref)) :
    r.target ref = r'.target ref := by
  cases formReason hform with
  | reference _ hget htext =>
    refine except_bind_congr (h.doc.resolve hn hget htext) fun target htarget => ?_
    rw [h.doc.unwrap (h.doc.closed.refer hn hget htext htarget)]

theorem blueprint (hn : P n) (name : String) : r.blueprint n name = r'.blueprint n name := by
  rw [Resolver.blueprint, Resolver.blueprint, enumValueType, enumValueType, shapeOf,
    shapeOf, h.primitives, h.doc.flatten hn]

end Shares

/-! ### One step of resolution -/

variable (r) in
/-- From every session with at most the given budget, the steps do the same. -/
def SameWithin {α : Type} (b : Nat) (m m' : Build α) : Prop :=
  ∀ s, s.budget r.doc ≤ b → m s = m' s

namespace SameWithin

variable {α β : Type} {b : Nat} {m m' : Build α} {k k' : α → Build β}

theorem refl (m : Build α) : r.SameWithin b m m := fun _ _ => rfl

/-- The second step has no larger budget than the first one. -/
theorem bind (hm : r.SameWithin b m m') (hgrows : Moves r.Grows m)
    (hk : ∀ a, r.SameWithin b (k a) (k' a)) :
    r.SameWithin b (m >>= k) (m' >>= k') := by
  intro s hs
  have hle := (hgrows s).budget_le r.doc
  rw [bind_apply, bind_apply, ← hm s hs]
  rcases hrun : m s with ⟨fault | a, t⟩
  · rfl
  · rw [hrun] at hle
    exact hk a t (Nat.le_trans hle hs)

theorem lift_bind {x : Except Fault α} (hk : ∀ a, x = .ok a → r.SameWithin b (k a) (k' a)) :
    r.SameWithin b ((liftM x : Build α) >>= k) ((liftM x : Build α) >>= k') := by
  cases x with
  | error fault => exact .refl _
  | ok a => exact hk a rfl

end SameWithin

section Step

variable {resolve resolve' : Node → String → Build TypeExpr} {b c : Nat} (h : Shares P r r')
  (hgrows : ∀ n hint, Moves r.Grows (resolve n hint))

include hgrows in
theorem resolveFields_sameWithin {properties : List (Scalar × Node)}
    (hf : ∀ e ∈ properties, ∀ hint, r.SameWithin c (resolve e.2.orEmpty hint)
      (resolve' e.2.orEmpty hint))
    (owner : String) (required : List Scalar) :
    r.SameWithin c (resolveFields resolve owner required properties)
      (resolveFields resolve' owner required properties) := by
  induction properties with
  | nil => exact .refl _
  | cons e properties ih =>
    obtain ⟨he, hes⟩ := List.forall_mem_cons.mp hf
    refine .lift_bind fun wireName _ => .bind (he _) (hgrows _ _) fun type => ?_
    refine .lift_bind fun value _ => .lift_bind fun description _ => ?_
    exact .bind (ih hes) (resolveFields_moves hgrows _ _ _) fun fields => .refl _

variable (hfewer : ∀ {n c}, P n → c < b → ∀ hint, r.SameWithin c (resolve n hint) (resolve' n hint))
include h hgrows hfewer

/-- The declaration of a schema from a session with a smaller budget. -/
theorem declareType_same (hn : P n) (name : String) {s : Session}
    (hs : ∀ {blueprint}, r.blueprint n name = .ok blueprint → s.budget r.doc < b) :
    r.declareType resolve n name s = r'.declareType resolve' n name s := by
  rw [declareType_eq, declareType_eq, ← h.blueprint hn]
  cases hblueprint : r.blueprint n name with
  | error fault => rfl
  | ok blueprint =>
    cases blueprint with
    | enumeration => rfl
    | record required properties description =>
      have hparts := h.doc.closed.blueprint rfl hn hblueprint
      have hfields := resolveFields_sameWithin (c := s.budget r.doc) hgrows
        (fun e he => hfewer (h.doc.closed.orEmpty (hparts e he)) (hs hblueprint)) name required
      have hdeclare := SameWithin.bind hfields (resolveFields_moves hgrows _ _ _)
        fun fields => .refl (Build.declare (.record name fields description))
      exact hdeclare s (Nat.le_refl _)

/-- A reference gets a type or gets in progress before resolution goes on. -/
theorem resolveReference_sameWithin {ref label : String} (hn : P n)
    (hform : r.form n label = .ok (.reference ref)) :
    r.SameWithin b (r.resolveReference resolve ref) (r'.resolveReference resolve' ref) := by
  intro s hs
  have htext : ref ∈ r.doc.texts := by
    cases formReason hform with
    | reference hhas hget htext =>
      exact Document.mem_texts (h.doc.tree.mem_subnodes_of_get (h.doc.part hn) hhas hget).2 htext
  by_cases hlookup : s.references.lookup ref = none
  · have htarget' := h.target hn hform
    rcases htarget : r.target ref with fault | ⟨schema, declares⟩
    · rw [resolveReference_of_error hlookup htarget,
        resolveReference_of_error hlookup (htarget' ▸ htarget)]
    have hschema : P schema := h.doc.closed.targetOf rfl hn hform htarget
    rw [htarget] at htarget'
    cases declares with
    | true =>
      rw [resolveReference_named hlookup htarget, resolveReference_named hlookup htarget'.symm]
      obtain ⟨name, taken, -, hreserve⟩ := reserveReference_apply ref s
      have hlt := Session.budget_lt_of_reference htext hlookup (.declared name) taken
      have hdeclare := declareType_same h hgrows hfewer hschema name
        (s := { s with taken, references := (ref, .declared name) :: s.references })
          fun _ => by omega
      simp only [bind_apply, hreserve, hdeclare]
    | false =>
      by_cases hresolving : ref ∈ s.resolving
      · rw [resolveReference_circular hlookup htarget hresolving,
          resolveReference_circular hlookup htarget'.symm hresolving]
      · rw [resolveReference_alias hlookup htarget hresolving,
          resolveReference_alias hlookup htarget'.symm hresolving]
        have hlt := Session.budget_lt_of_resolving htext hresolving
        have htype :=
          hfewer hschema (Nat.lt_of_lt_of_le hlt hs) (Naming.pascal (referenceName ref)) _
            (Nat.le_refl _)
        simp only [bind_apply, whileResolving_apply, htype]
  · obtain ⟨type, htype⟩ := Option.ne_none_iff_exists'.mp hlookup
    rw [resolveReference_cached htype, resolveReference_cached htype]

/-- An inline schema gets a name before resolution goes on. -/
theorem resolveInline_sameWithin (hn : P n) {label : String} (hform : r.form n label = .ok .inline)
    (hint : String) :
    r.SameWithin b (r.resolveInline resolve n hint) (r'.resolveInline resolve' n hint) := by
  intro s hs
  by_cases hlookup : s.inlines.lookup n.address = none
  · rw [resolveInline_new hlookup, resolveInline_new hlookup]
    rcases hreserve : Build.reserveInline n (nonEmpty hint "Inline") s with ⟨fault | name, t⟩
    · cases hreserve
    have hdeclare : r.declareType resolve n name t = r'.declareType resolve' n name t := by
      refine declareType_same h hgrows hfewer hn name fun {blueprint} hblueprint => ?_
      have hmem := mem_subnodes_of_inline h.doc.tree (h.doc.part hn) hform hblueprint
      have hlt := Session.budget_lt_of_inline (Document.mem_addresses hmem) hlookup
      cases hreserve
      exact Nat.lt_of_lt_of_le (hlt _ _) hs
    simp only [bind_apply, hreserve, hdeclare]
  · obtain ⟨name, hname⟩ := Option.ne_none_iff_exists'.mp hlookup
    rw [resolveInline_cached hname, resolveInline_cached hname]

/-- One step of resolution is the same if every resolution is that it goes to: one of a smaller
schema, or one with a smaller budget. -/
theorem resolveStep_sameWithin (hn : P n)
    (hsmaller : ∀ {m}, P m → m.size < n.size →
      ∀ hint, r.SameWithin b (resolve m hint) (resolve' m hint))
    (hint : String) :
    r.SameWithin b (r.resolveStep resolve n hint) (r'.resolveStep resolve' n hint) := by
  rw [resolveStep_eq, resolveStep_eq, ← h.form hn]
  refine .lift_bind fun form hform => ?_
  have hinner (m : Node) (hm : m ∈ form.schemas) (hint : String) :
      r.SameWithin b (resolve m hint) (resolve' m hint) :=
    hsmaller (h.doc.closed.form rfl hn hform m hm)
      (size_lt_of_form (h.doc.tree.bounds (h.doc.part hn)).isTree hform m hm) hint
  cases form with
  | absent => exact .refl _
  | reference ref => exact resolveReference_sameWithin h hgrows hfewer hn hform
  | wrapper inner => exact hinner inner List.mem_cons_self hint
  | inline => exact resolveInline_sameWithin h hgrows hfewer hn hform hint
  | list items => exact .bind (hinner items List.mem_cons_self _) (hgrows _ _) fun _ => .refl _
  | map values => exact .bind (hinner values List.mem_cons_self _) (hgrows _ _) fun _ => .refl _
  | primitive name => exact .refl _

end Step

/-! ### Resolution -/

namespace Shares

variable (h : Shares P r r')
include h

/-- From sessions with a budget, resolution is the same under all bounds that are large enough for
it. -/
theorem resolveWithin {b fuel fuel' : Nat} (hn : P n) (hfuel : b * (r.doc.size + 1) + n.size ≤ fuel)
    (hfuel' : b * (r.doc.size + 1) + n.size ≤ fuel') (hint : String) :
    r.SameWithin b (r.resolveWithin fuel n hint) (r'.resolveWithin fuel' n hint) := by
  induction fuel generalizing n b fuel' hint with
  | zero =>
    have hsize := n.one_le_size
    omega
  | succ fuel ih =>
    have hsize := n.one_le_size
    obtain ⟨fuel', rfl⟩ : ∃ more, fuel' = more + 1 := Nat.exists_eq_succ_of_ne_zero (by omega)
    have hgrows (n : Node) (hint : String) := resolveWithin_grows (r := r) fuel n hint
    refine resolveStep_sameWithin h hgrows (fun {m c} hm hc hint => ?_) hn
      (fun {m} hm hlt hint => ih hm (by omega) (by omega) hint) hint
    have hbudget : (c + 1) * (r.doc.size + 1) ≤ b * (r.doc.size + 1) := Nat.mul_le_mul_right _ hc
    have hsize := (h.doc.tree.bounds (h.doc.part hm)).size
    rw [Nat.succ_mul] at hbudget
    exact ih hm (by omega) (by omega) hint

/-- The bound of a resolver is large enough for all sessions, and so is every larger one. -/
theorem resolveWithin_eq {fuel fuel' : Nat} (hn : P n) (hfuel : r.stepBound ≤ fuel)
    (hfuel' : r.stepBound ≤ fuel') (hint : String) :
    r.resolveWithin fuel n hint = r'.resolveWithin fuel' n hint := by
  funext s
  have hbound := Nat.le_of_lt (r.budget_lt_stepBound (h.doc.tree.bounds (h.doc.part hn)).size)
  exact h.resolveWithin hn (Nat.le_trans hbound hfuel) (Nat.le_trans hbound hfuel') hint s
    (s.budget_le h.doc.tree)

/-- A schema that both documents have in common resolves in the same way in both of them. -/
theorem resolve (hn : P n) (hint : String) : r.resolve n hint = r'.resolve n hint := by
  have hbound {r r' : Resolver} (hsize : r.doc.size ≤ r'.doc.size) : r.stepBound ≤ r'.stepBound :=
    Nat.mul_le_mul (by omega) (by omega)
  rcases Nat.le_total r.doc.size r'.doc.size with hsize | hsize
  · exact h.resolveWithin_eq hn (Nat.le_refl _) (hbound hsize) hint
  · exact (h.symm.resolveWithin_eq hn (Nat.le_refl _) (hbound hsize) hint).symm

end Shares

end Resolver

end ServiceContract
