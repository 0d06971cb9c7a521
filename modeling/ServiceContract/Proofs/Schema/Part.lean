import ServiceContract.Proofs.Document.Entry
import ServiceContract.Proofs.Document.Part
import ServiceContract.Proofs.Schema.Form

/-!
# Parts of documents among schemas

The schemas that a form, a target or a blueprint speaks of have every hereditary property that the
schema has which they are read from.

## Main results

* `Document.Closed.form`, `Document.Hereditary.target`, `Document.Closed.blueprint`.
-/

namespace ServiceContract

/-- Each result is the one of an item, if none is a fault. -/
theorem mem_of_mapM_eq_ok {α β : Type} {f : α → Except Fault β} {xs : List α} {ys : List β} {y : β}
    (h : xs.mapM f = .ok ys) (hy : y ∈ ys) : ∃ x ∈ xs, f x = .ok y := by
  induction xs generalizing ys with
  | nil =>
    cases h
    cases hy
  | cons x xs ih =>
    rw [List.mapM_cons] at h
    obtain ⟨z, hz, h⟩ := except_bind_eq_ok.mp h
    obtain ⟨zs, hzs, h⟩ := except_bind_eq_ok.mp h
    cases h
    rcases List.mem_cons.mp hy with rfl | hy
    · exact ⟨x, List.mem_cons_self, hz⟩
    · obtain ⟨x', hx', h⟩ := ih hzs hy
      exact ⟨x', List.mem_cons_of_mem _ hx', h⟩

/-- Properties that have been merged come from either shape. -/
theorem Shape.of_mem_merge {P : Node → Prop} {a b : Shape} (ha : ∀ e ∈ a.properties, P e.2)
    (hb : ∀ e ∈ b.properties, P e.2) : ∀ e ∈ (a.merge b).properties, P e.2 := by
  have hfold (es fs : List (Scalar × Node)) (hes : ∀ e ∈ es, P e.2) (hfs : ∀ e ∈ fs, P e.2) :
      ∀ e ∈ fs.foldl (fun es e => insertEntry e.1 e.2 es) es, P e.2 := by
    induction fs generalizing es with
    | nil => exact hes
    | cons f fs ih =>
      refine ih _ (fun e he => ?_) fun e he => hfs e (List.mem_cons_of_mem _ he)
      rcases snd_of_mem_insertEntry he with h | ⟨e', he', h⟩
      · exact h ▸ hfs f List.mem_cons_self
      · exact h ▸ hes e' he'
  exact hfold _ _ ha hb

namespace Node.Downward

variable {P : Node → Prop} (hP : Downward P) {schema n : Node} {label : String}
include hP

/-! ### Wrappers -/

theorem mem_keepIf {keyword : String} {test : Node → Except Fault Bool} {ns : List Node}
    (hs : P schema)
    (h : (do Node.keepIf test (← (← schema.get keyword).items) : Except Fault (List Node)) = .ok ns)
    (hn : n ∈ ns) : P n := by
  obtain ⟨c, hc, h⟩ := except_bind_eq_ok.mp h
  obtain ⟨items, hitems, h⟩ := except_bind_eq_ok.mp h
  exact hP.items (hP.get hs hc) hitems (Node.mem_of_keepIf h hn)

theorem onlyAlternative {keyword : String} (hs : P schema)
    (h : schema.onlyAlternative keyword label = .ok n) : P n := by
  obtain ⟨branches, hbranches, h⟩ := except_bind_eq_ok.mp h
  rcases branches with _ | ⟨branch, _ | _⟩
  · cases h
  · cases h
    exact hP.mem_keepIf hs hbranches List.mem_cons_self
  · cases h

theorem stripLayer (hs : P schema) (h : schema.stripLayer label = .ok (some n)) : P n := by
  obtain ⟨isReference, -, h⟩ := except_bind_eq_ok.mp h
  split_ifs at h
  · cases h
  obtain ⟨hasMembers, -, h⟩ := except_bind_eq_ok.mp h
  split_ifs at h
  · obtain ⟨properties, -, h⟩ := except_bind_eq_ok.mp h
    split_ifs at h
    · cases h
    · obtain ⟨members, hmembers, h⟩ := except_bind_eq_ok.mp h
      rcases members with _ | ⟨member, _ | _⟩
      · cases h
        exact hP.empty
      · cases h
        exact hP.mem_keepIf hs hmembers List.mem_cons_self
      · cases h
  obtain ⟨hasOneOf, -, h⟩ := except_bind_eq_ok.mp h
  split_ifs at h
  · obtain ⟨inner, hinner, h⟩ := except_bind_eq_ok.mp h
    cases h
    exact hP.onlyAlternative hs hinner
  obtain ⟨hasAnyOf, -, h⟩ := except_bind_eq_ok.mp h
  split_ifs at h
  · obtain ⟨inner, hinner, h⟩ := except_bind_eq_ok.mp h
    cases h
    exact hP.onlyAlternative hs hinner
  · cases h

theorem unwrapWithin {fuel : Nat} (hs : P schema) (h : schema.unwrapWithin label fuel = .ok n) :
    P n := by
  induction fuel generalizing schema with
  | zero => cases h
  | succ fuel ih =>
    obtain ⟨layer, hlayer, h⟩ := except_bind_eq_ok.mp h
    cases layer with
    | none =>
      cases h
      exact hs
    | some inner => exact ih (hP.stripLayer hs hlayer) h

/-! ### Shapes -/

theorem entryOfPair {e : Scalar × Node} (hs : P schema) (h : Shape.entryOfPair schema = .ok e) :
    P e.2 := by
  obtain ⟨items, hitems, h⟩ := except_bind_eq_ok.mp h
  rcases items with _ | ⟨key, _ | ⟨value, _ | _⟩⟩
  · cases h
  · cases h
  · obtain ⟨k, -, h⟩ := except_bind_eq_ok.mp h
    cases h
    exact hP.items hs hitems (List.mem_cons_of_mem _ List.mem_cons_self)
  · cases h

theorem propertyEntries {es : List (Scalar × Node)} {e : Scalar × Node} (hs : P schema)
    (h : Shape.propertyEntries schema = .ok es) (he : e ∈ es) : P e.2 := by
  unfold Shape.propertyEntries at h
  split_ifs at h
  · cases h
    cases he
  · split at h
    · exact hP.entries hs h he
    · obtain ⟨items, hitems, h⟩ := except_bind_eq_ok.mp h
      obtain ⟨pair, hpair, h⟩ := mem_of_mapM_eq_ok h he
      exact hP.entryOfPair (hP.items hs hitems hpair) h

theorem ofMember {shape : Shape} (hs : P schema) (h : Shape.ofMember schema = .ok shape) :
    ∀ e ∈ shape.properties, P e.2 := by
  obtain ⟨properties, hproperties, h⟩ := except_bind_eq_ok.mp h
  obtain ⟨es, hes, h⟩ := except_bind_eq_ok.mp h
  obtain ⟨required, -, h⟩ := except_bind_eq_ok.mp h
  obtain ⟨names, -, h⟩ := except_bind_eq_ok.mp h
  cases h
  exact fun e he => hP.propertyEntries (hP.get hs hproperties) hes he

theorem ofObject {shape : Shape} (hs : P schema) (h : Shape.ofObject schema = .ok shape) :
    ∀ e ∈ shape.properties, P e.2 := by
  obtain ⟨required, -, h⟩ := except_bind_eq_ok.mp h
  obtain ⟨names, -, h⟩ := except_bind_eq_ok.mp h
  obtain ⟨properties, hproperties, h⟩ := except_bind_eq_ok.mp h
  obtain ⟨es, hes, h⟩ := except_bind_eq_ok.mp h
  cases h
  exact fun e he => hP.entriesIfAny (hP.get hs hproperties) hes he

end Node.Downward

namespace Document.Closed

variable {doc : Document} {P : Node → Prop} (hP : doc.Closed P) {schema n : Node} {label : String}
include hP

/-! ### Flattening -/

theorem dereference {fuel : Nat} (hs : P schema) (h : doc.dereference fuel schema = .ok n) :
    P n := by
  induction fuel generalizing schema with
  | zero => cases h
  | succ fuel ih =>
    obtain ⟨isReference, -, h⟩ := except_bind_eq_ok.mp h
    split_ifs at h
    · obtain ⟨value, hvalue, h⟩ := except_bind_eq_ok.mp h
      obtain ⟨ref, href, h⟩ := except_bind_eq_ok.mp h
      obtain ⟨target, htarget, h⟩ := except_bind_eq_ok.mp h
      exact ih (hP.refer hs hvalue href htarget) h
    · cases h
      exact hs

theorem memberShape {flatten : Node → Except Fault Shape} {member : Node} {shape : Shape}
    (hf : ∀ {n shape}, P n → flatten n = .ok shape → ∀ e ∈ shape.properties, P e.2) (hm : P member)
    (h : doc.memberShape flatten label schema member = .ok shape) :
    ∀ e ∈ shape.properties, P e.2 := by
  obtain ⟨part, hpart, h⟩ := except_bind_eq_ok.mp h
  obtain ⟨hasMembers, -, h⟩ := except_bind_eq_ok.mp h
  split_ifs at h
  · exact hf (hP.dereference hm hpart) h
  · obtain ⟨objectLike, -, h⟩ := except_bind_eq_ok.mp h
    split_ifs at h
    exact hP.ofMember (hP.dereference hm hpart) h

theorem mergeMembers {flatten : Node → Except Fault Shape} {members : List Node}
    {shape result : Shape}
    (hf : ∀ {n shape}, P n → flatten n = .ok shape → ∀ e ∈ shape.properties, P e.2)
    (hm : ∀ m ∈ members, P m) (hs : ∀ e ∈ shape.properties, P e.2)
    (h : doc.mergeMembers flatten label schema shape members = .ok result) :
    ∀ e ∈ result.properties, P e.2 := by
  induction members generalizing shape with
  | nil =>
    cases h
    exact hs
  | cons member members ih =>
    obtain ⟨part, hpart, h⟩ := except_bind_eq_ok.mp h
    refine ih (fun m hmem => hm m (List.mem_cons_of_mem _ hmem)) ?_ h
    exact Shape.of_mem_merge hs (hP.memberShape hf (hm member List.mem_cons_self) hpart)

theorem flattenWithin {fuel : Nat} {shape : Shape} (hs : P schema)
    (h : doc.flattenWithin label fuel schema = .ok shape) : ∀ e ∈ shape.properties, P e.2 := by
  induction fuel generalizing schema shape with
  | zero => cases h
  | succ fuel ih =>
    obtain ⟨value, hvalue, h⟩ := except_bind_eq_ok.mp h
    obtain ⟨members, hmembers, h⟩ := except_bind_eq_ok.mp h
    refine hP.mergeMembers ih (fun m hm => ?_) (fun e he => absurd he List.not_mem_nil) h
    rcases List.mem_append.mp hm with hm | hm
    · exact hP.items (hP.get hs hvalue) hmembers hm
    · exact List.mem_singleton.mp hm ▸ hs

/-! ### Forms, targets and blueprints -/

/-- The schemas that a form speaks of. -/
theorem form {r : Resolver} {f : SchemaForm} (hr : r.doc = doc) (hs : P schema)
    (h : r.form schema label = .ok f) : ∀ n ∈ f.schemas, P n := by
  subst hr
  cases Resolver.formReason h with
  | wrapper hlayer hunwrap =>
    exact List.forall_mem_singleton.mpr (hP.unwrapWithin (hP.stripLayer hs hlayer) hunwrap)
  | list _ _ hitems => exact List.forall_mem_singleton.mpr (hP.orEmpty (hP.get hs hitems))
  | map hvalues => exact List.forall_mem_singleton.mpr (hP.get hs hvalues)
  | absent | reference | inline | primitive => exact fun n hn => absurd hn List.not_mem_nil

/-- The target of a reference that a schema is. -/
theorem targetOf {r : Resolver} {ref : String} {declares : Bool} (hr : r.doc = doc) (hn : P n)
    (hform : r.form n label = .ok (.reference ref)) (h : r.target ref = .ok (schema, declares)) :
    P schema := by
  subst hr
  obtain ⟨node, hnode, h⟩ := except_bind_eq_ok.mp h
  obtain ⟨inner, hinner, h⟩ := except_bind_eq_ok.mp h
  obtain ⟨declares, -, h⟩ := except_bind_eq_ok.mp h
  cases h
  cases Resolver.formReason hform with
  | reference _ hget htext => exact hP.unwrapWithin (hP.refer hn hget htext hnode) hinner

/-- The schemas of the properties that a blueprint speaks of. -/
theorem blueprint {r : Resolver} {name description : String} {required : List Scalar}
    {properties : List (Scalar × Node)} (hr : r.doc = doc) (hs : P schema)
    (h : r.blueprint schema name = .ok (.record required properties description)) :
    ∀ e ∈ properties, P e.2 := by
  subst hr
  obtain ⟨shape, hshape, -, rfl⟩ := r.shapeOf_of_blueprint h
  obtain ⟨hasMembers, -, h⟩ := except_bind_eq_ok.mp hshape
  split_ifs at h
  · exact hP.flattenWithin hs h
  · exact hP.ofObject hs h

end Document.Closed

/-- The target of any reference. -/
theorem Document.Hereditary.target {doc : Document} {P : Node → Prop} (hP : doc.Hereditary P)
    {r : Resolver} {schema : Node} {ref : String} {declares : Bool} (hr : r.doc = doc)
    (h : r.target ref = .ok (schema, declares)) : P schema := by
  subst hr
  obtain ⟨node, hnode, h⟩ := except_bind_eq_ok.mp h
  obtain ⟨inner, hinner, h⟩ := except_bind_eq_ok.mp h
  obtain ⟨declares, -, h⟩ := except_bind_eq_ok.mp h
  cases h
  exact hP.unwrapWithin (hP.resolve hnode) hinner

end ServiceContract
