import ServiceContract.Proofs.Document.Entry
import ServiceContract.Proofs.Document.Shared
import ServiceContract.Proofs.Document.WellFormed
import ServiceContract.Proofs.Schema.Bound

/-!
# The schemas that an `allOf` is composed of

A schema with an `allOf` is composed of its members, each of them after its references are followed:
a member with an `allOf` of its own stands for all that it is composed of, and the schema itself
comes last. Flattening goes through the levels of `allOf` and merges what each level gives into the
level around it. That is the same as to merge the schemas of all levels one after the other.

## Main definitions

* `Document.Leads`, `Document.Member`: where a member leads to, and the schemas that one is composed
  of.
* `Document.Lineage`, `Document.Lists`: all schemas that one is composed of, in order.
* `Document.Composable`: schemas whose members can be followed and do not go round in a circle.
* `Node.HasTextKeys`: schemas whose properties have texts as keys.
* `Shape.mergeAll`: the shapes of schemas merged one after the other.

## Main results

* `Document.Composable.composed`: a schema is composable if its members are.
* `Document.Composable.exists_lists`: what a composable schema is composed of.
* `Document.Composable.flatten_eq`: its flattening merges all of that.
-/

namespace ServiceContract

open Relation

/-! ### Members -/

/-- The schema has an `allOf` with the given members. -/
def Node.Composes (schema : Node) (members : List Node) : Prop :=
  schema.has "allOf" = .ok true ∧ ∃ value, schema.get "allOf" = .ok value ∧
    value.items = .ok members

theorem Node.Composes.hasMember {n m : Node} {members : List Node} (h : n.Composes members)
    (hm : m ∈ members) : Document.HasMember n m := by
  obtain ⟨hall, value, hget, hitems⟩ := h
  exact ⟨hall, value, members, hget, hitems, hm⟩

namespace Document

variable (doc : Document)

/-- The references from a node lead to the other one, which is none. -/
def Leads (n m : Node) : Prop :=
  ReflTransGen doc.Refers n m ∧ m.has "$ref" = .ok false

/-- The schema has an `allOf` with a member that leads to the other one. -/
def Member (n m : Node) : Prop :=
  ∃ member, HasMember n member ∧ doc.Leads member m

/-- What members are composed of. A member that leads to a schema with an `allOf` is composed of the
members of that and then the schema itself; every other member is composed of what it leads to. -/
inductive Lineage : List Node → List Node → Prop
  | nil : Lineage [] []
  | plain {member part : Node} {members below : List Node} (hpart : doc.Leads member part)
    (hall : part.has "allOf" = .ok false) (hrest : Lineage members below) :
    Lineage (member :: members) (part :: below)
  | composed {member part : Node} {inner above members below : List Node}
    (hpart : doc.Leads member part) (hinner : part.Composes inner) (habove : Lineage inner above)
    (hrest : Lineage members below) :
    Lineage (member :: members) (above ++ part :: below)

/-- The schemas that a schema with an `allOf` is composed of: those of its members, and then
itself. -/
def Lists (schema : Node) (l : List Node) : Prop :=
  ∃ members above, schema.Composes members ∧ doc.Lineage members above ∧ l = above ++ [schema]

/-- From a schema the members of `allOf` lead to objects and never round in a circle. -/
structure Composable (schema : Node) : Prop where
  acyclic : ∀ {n}, ReflTransGen doc.Member schema n → ¬ TransGen doc.Member n n
  members : ∀ {n}, ReflTransGen doc.Member schema n → n.has "allOf" = .ok true →
    ∃ members, n.Composes members ∧ ∀ m ∈ members, ∃ a es, doc.Leads m (.map a es)

variable {doc : Document} {schema n m : Node} {members l : List Node}

theorem Leads.part (hn : doc.Part n) (h : doc.Leads n m) : doc.Part m := by
  rcases ReflTransGen.cases_tail h.1 with rfl | ⟨_, -, hlast⟩
  · exact hn
  · exact hlast.part

theorem Member.part (hn : doc.Part n) (h : doc.Member n m) : doc.Part m := by
  obtain ⟨member, hmember, hleads⟩ := h
  exact hleads.part (hmember.part hn)

/-- What a member leads to is what is found by following its references. -/
theorem Leads.dereference (hcounted : doc.Counted) (hn : doc.Part n) (h : doc.Leads n m) :
    doc.dereference (doc.size + 2) n = .ok m := by
  obtain ⟨hreferences, hend⟩ := h
  have hlong : ∃ length, ∀ fuel, length ≤ fuel → doc.dereference fuel n = .ok m := by
    clear hn
    induction hreferences using ReflTransGen.head_induction_on with
    | refl =>
      refine ⟨1, fun fuel hfuel => ?_⟩
      obtain ⟨fuel, rfl⟩ := Nat.exists_eq_add_of_le' hfuel
      rw [Document.dereference, hend]
      rfl
    | head hfirst _ ih =>
      obtain ⟨length, ih⟩ := ih
      refine ⟨length + 1, fun fuel hfuel => ?_⟩
      obtain ⟨fuel, rfl⟩ := Nat.exists_eq_add_of_le' (Nat.one_le_of_lt hfuel)
      rw [hfirst.dereference_succ]
      exact ih fuel (Nat.le_of_succ_le_succ hfuel)
  obtain ⟨length, hlong⟩ := hlong
  rw [hcounted.dereference_eq hn (Nat.le_refl _) (Nat.le_max_right length _)]
  exact hlong _ (Nat.le_max_left _ _)

theorem Composable.of_member (h : doc.Composable n) (hm : doc.Member n m) : doc.Composable m where
  acyclic hmn := h.acyclic (.head hm hmn)
  members hmn := h.members (.head hm hmn)

/-- A member leads to one schema only. -/
theorem Leads.unique {m' : Node} (h : doc.Leads n m) (h' : doc.Leads n m') : m = m' := by
  obtain ⟨hreferences, hend⟩ := h
  induction hreferences using ReflTransGen.head_induction_on with
  | refl =>
    rcases ReflTransGen.cases_head h'.1 with rfl | ⟨_, ⟨_, _, href, -⟩, -⟩
    · rfl
    · cases hend.symm.trans href
  | head hfirst _ ih =>
    obtain ⟨value, ref, href, hget, htext, hresolve⟩ := hfirst
    rcases ReflTransGen.cases_head h'.1 with rfl | ⟨_, ⟨_, _, -, hget', htext', hresolve'⟩, hrest⟩
    · cases h'.2.symm.trans href
    · cases hget.symm.trans hget'
      cases htext.symm.trans htext'
      cases hresolve.symm.trans hresolve'
      exact ih ⟨hrest, h'.2⟩

/-- A schema without an `allOf` has no members. -/
theorem Composable.plain (hall : n.has "allOf" = .ok false) : doc.Composable n := by
  have hend {m : Node} (h : doc.Member n m) : False := by
    obtain ⟨_, ⟨htrue, -⟩, -⟩ := h
    cases hall.symm.trans htrue
  constructor
  · intro m hm hcircle
    rcases ReflTransGen.cases_head hm with rfl | ⟨_, hfirst, -⟩
    · obtain ⟨_, hfirst, -⟩ := TransGen.head'_iff.mp hcircle
      exact hend hfirst
    · exact (hend hfirst).elim
  · intro m hm htrue
    rcases ReflTransGen.cases_head hm with rfl | ⟨_, hfirst, -⟩
    · cases hall.symm.trans htrue
    · exact (hend hfirst).elim

/-- A schema is composable if its members lead to objects that are. -/
theorem Composable.composed (hmembers : n.Composes members)
    (h : ∀ m ∈ members, ∃ a es, doc.Leads m (.map a es) ∧ doc.Composable (.map a es)) :
    doc.Composable n := by
  have hmember {m : Node} (hm : doc.Member n m) : doc.Composable m := by
    obtain ⟨member, ⟨_, value, _, hget, hitems, hmem⟩, hleads⟩ := hm
    obtain ⟨_, value', hget', hitems'⟩ := hmembers
    cases hget.symm.trans hget'
    cases hitems.symm.trans hitems'
    obtain ⟨a, es, hleads', hc⟩ := h member hmem
    rwa [hleads.unique hleads']
  constructor
  · intro m hm hcircle
    rcases ReflTransGen.cases_head hm with rfl | ⟨c, hfirst, hrest⟩
    · obtain ⟨c, hfirst, hback⟩ := TransGen.head'_iff.mp hcircle
      exact (hmember hfirst).acyclic hback hcircle
    · exact (hmember hfirst).acyclic hrest hcircle
  · intro m hm hall
    rcases ReflTransGen.cases_head hm with rfl | ⟨c, hfirst, hrest⟩
    · exact ⟨members, hmembers, fun m hm => (h m hm).imp fun a => .imp fun es => And.left⟩
    · exact (hmember hfirst).members hrest hall

/-- A schema that does not lead round to itself is another one than its members lead to. -/
theorem Composable.address_ne (h : doc.Composable n) (hwell : doc.WellFormed) (hn : doc.Part n)
    (hm : doc.Member n m) : m.address ≠ n.address := by
  intro heq
  have hnowhere : n.address ≠ .nowhere := by
    intro hnowhere
    obtain ⟨member, ⟨hall, value, _, hget, -⟩, -⟩ := hm
    rcases hwell.nowhere hn hnowhere with rfl | rfl | ⟨c, rfl⟩
    · cases hget
    · cases hall
    · cases hget
  obtain rfl := hwell.unique hn (hm.part hn) heq.symm hnowhere
  exact h.acyclic .refl (.single hm)

/-! ### What a schema is composed of -/

/-- A composable schema with an `allOf` is composed of finitely many schemas. -/
theorem Composable.exists_lists (h : doc.Composable n) (hcounted : doc.Counted) (hn : doc.Part n)
    (hall : n.has "allOf" = .ok true) : ∃ l, doc.Lists n l := by
  obtain ⟨parts, hsize, hparts⟩ := hcounted
  let E (a b : Node) : Prop := doc.Part a ∧ doc.Member a b
  have hfinite {a b : Node} (hab : E a b) : b ∈ parts ∨ ∀ c, ¬ E b c := by
    obtain ⟨ha, hab⟩ := hab
    by_cases hb : ∃ c, E b c
    · obtain ⟨c, hb, member, ⟨hall, value, _, hget, -⟩, -⟩ := hb
      exact .inl (mem_of_get hparts hb hall hget)
    · exact .inr fun c hc => hb ⟨c, hc⟩
  let P (_ : Nat) (a : Node) : Prop := doc.Part a → doc.Composable a → a.has "allOf" = .ok true →
    ∃ l, doc.Lists a l
  have hstep (fuel : Nat) (a : Node) (ih : ∀ b, E a b → P fuel b) : P (fuel + 1) a := by
    intro ha hc hall
    obtain ⟨members, hmembers, hleads⟩ := hc.members .refl hall
    have hlineage (ms : List Node) (hms : ∀ m ∈ ms, m ∈ members) :
        ∃ above, doc.Lineage ms above := by
      induction ms with
      | nil => exact ⟨[], .nil⟩
      | cons m ms ihms =>
        obtain ⟨hm, hms⟩ := List.forall_mem_cons.mp hms
        obtain ⟨below, hbelow⟩ := ihms hms
        obtain ⟨b, es, hpart⟩ := hleads m hm
        have hmember : doc.Member a (.map b es) := ⟨m, hmembers.hasMember hm, hpart⟩
        cases hnested : (Node.map b es).has "allOf" with
        | error fault => cases hnested
        | ok nested =>
          cases nested with
          | false => exact ⟨_, .plain hpart hnested hbelow⟩
          | true =>
            obtain ⟨l, inner, above, hinner, habove, -⟩ :=
              ih _ ⟨ha, hmember⟩ (hmember.part ha) (hc.of_member hmember) hnested
            exact ⟨_, .composed hpart hinner habove hbelow⟩
    obtain ⟨above, habove⟩ := hlineage members fun _ hm => hm
    exact ⟨_, members, above, hmembers, habove, rfl⟩
  have hacyclic (b : Node) (hb : ReflTransGen E n b) : ¬ TransGen E b b := fun hcircle =>
    h.acyclic (ReflTransGen.mono (fun _ _ hE => hE.2) _ _ hb)
      (TransGen.mono (fun _ _ hE => hE.2) _ _ hcircle)
  exact fuel_induction hfinite hstep hacyclic (Nat.le_refl _) hn h hall

end Document

/-! ### Merging -/

/-- The properties of the schema have texts as keys. -/
def Node.HasTextKeys (n : Node) : Prop :=
  ∀ {shape}, Shape.ofMember n = .ok shape → ∃ es, shape.properties = textual es

namespace Shape

/-- The shapes of schemas merged one after the other. All of them have to be objects. -/
def mergeAll (label : String) : Shape → List Node → Except Fault Shape
  | shape, [] => .ok shape
  | shape, n :: ns => do
    if ← n.isObjectLike label then mergeAll label (shape.merge (← ofMember n)) ns
    else throw (.unsupported label "allOf member is not an object")

/-- The properties have texts as keys, each of them once. -/
def IsKeyed (a : Shape) : Prop :=
  ∃ es, a.properties = textual es ∧ (es.map Prod.fst).Nodup

variable {a b c : Shape} {label : String} {n : Node} {ns ms : List Node}

theorem isKeyed_empty : empty.IsKeyed :=
  ⟨[], rfl, .nil⟩

theorem merge_empty (a : Shape) : a.merge empty = a := by
  rw [merge, empty, List.append_nil]
  rfl

theorem IsKeyed.merge (ha : a.IsKeyed) (hb : ∃ es, b.properties = textual es) :
    (a.merge b).IsKeyed := by
  obtain ⟨es, hes, hnodup⟩ := ha
  obtain ⟨fs, hfs⟩ := hb
  refine ⟨assignAll es fs, ?_, nodup_assignAll hnodup⟩
  rw [Shape.merge, hes, hfs, foldl_insertEntry_textual]

/-- It does not matter in which order shapes are put together. -/
theorem merge_merge (ha : a.IsKeyed) (hb : b.IsKeyed) (hc : ∃ es, c.properties = textual es) :
    (a.merge b).merge c = a.merge (b.merge c) := by
  obtain ⟨es, hes, -⟩ := ha
  obtain ⟨fs, hfs, hnodup⟩ := hb
  obtain ⟨gs, hgs⟩ := hc
  simp only [merge, hes, hfs, hgs, foldl_insertEntry_textual, assignAll_assignAll hnodup,
    List.append_assoc]

theorem mergeAll_append (a : Shape) (ns ms : List Node) :
    mergeAll label a (ns ++ ms) = mergeAll label a ns >>= fun b => mergeAll label b ms := by
  induction ns generalizing a with
  | nil => rfl
  | cons n ns ih =>
    simp only [List.cons_append, mergeAll, bind_assoc]
    refine bind_congr fun isObject => ?_
    cases isObject with
    | false => rfl
    | true => simp only [if_true, bind_assoc, ih]

/-- What is merged into one shape and then into another is merged into the other one after the
shape. -/
theorem mergeAll_merge (ha : a.IsKeyed) (hb : b.IsKeyed) (hns : ∀ n ∈ ns, n.HasTextKeys) :
    mergeAll label (a.merge b) ns = mergeAll label b ns >>= fun c => .ok (a.merge c) := by
  induction ns generalizing b with
  | nil => rfl
  | cons n ns ih =>
    obtain ⟨hn, hns⟩ := List.forall_mem_cons.mp hns
    simp only [mergeAll, bind_assoc]
    refine bind_congr fun isObject => ?_
    cases isObject with
    | false => rfl
    | true =>
      simp only [if_true, bind_assoc]
      refine except_bind_congr rfl fun c hc => ?_
      rw [merge_merge ha hb (hn hc), ih (hb.merge (hn hc)) hns]

/-- What is merged into a shape may be merged by itself first. -/
theorem mergeAll_eq (ha : a.IsKeyed) (hns : ∀ n ∈ ns, n.HasTextKeys) :
    mergeAll label a ns = mergeAll label empty ns >>= fun c => .ok (a.merge c) := by
  rw [← mergeAll_merge ha isKeyed_empty hns, merge_empty]

theorem isKeyed_of_mergeAll (ha : a.IsKeyed) (hns : ∀ n ∈ ns, n.HasTextKeys)
    (h : mergeAll label a ns = .ok b) : b.IsKeyed := by
  induction ns generalizing a with
  | nil =>
    cases h
    exact ha
  | cons n ns ih =>
    obtain ⟨hn, hns⟩ := List.forall_mem_cons.mp hns
    obtain ⟨isObject, -, h⟩ := except_bind_eq_ok.mp h
    cases isObject with
    | false => cases h
    | true =>
      obtain ⟨c, hc, h⟩ := except_bind_eq_ok.mp h
      exact ih (ha.merge (hn hc)) hns h

end Shape

/-! ### Flattening -/

namespace Document

variable {doc : Document} {schema n m : Node} {members above l : List Node} {label : String}
  {flatten : Node → Except Fault Shape}

theorem mergeMembers_append (a : Shape) (ms ms' : List Node) :
    doc.mergeMembers flatten label schema a (ms ++ ms') =
      doc.mergeMembers flatten label schema a ms >>= fun b =>
        doc.mergeMembers flatten label schema b ms' := by
  induction ms generalizing a with
  | nil => rfl
  | cons m ms ih => simp only [List.cons_append, mergeMembers, bind_assoc, ih]

/-- A member without an `allOf` gives its own shape, if it is an object. -/
theorem mergeMembers_plain (hpart : doc.dereference (doc.size + 2) m = .ok n)
    (hself : n.has "allOf" = .ok false ∨ ∃ nested, n.has "allOf" = .ok nested ∧
      n.address = schema.address)
    (a : Shape) (ms : List Node) : doc.mergeMembers flatten label schema a (m :: ms) =
      Shape.mergeAll label a [n] >>= fun b => doc.mergeMembers flatten label schema b ms := by
  have hshape : doc.memberShape flatten label schema m = (do
      if ← n.isObjectLike label then Shape.ofMember n
      else throw (.unsupported label "allOf member is not an object")) := by
    rw [memberShape, hpart, except_ok_bind]
    rcases hself with hall | ⟨nested, hall, haddress⟩
    · rw [hall]
      rfl
    · rw [hall, except_ok_bind, haddress, bne_self_eq_false, Bool.and_false]
      rfl
  rw [mergeMembers, hshape]
  simp only [Shape.mergeAll, bind_assoc]
  refine bind_congr fun isObject => ?_
  cases isObject with
  | false => rfl
  | true =>
    simp only [if_true, bind_assoc]
    rfl

/-- The flattening of a schema merges what its members are composed of and then the schema itself,
if that is so for its members. -/
theorem flattenWithin_succ_eq {fuel : Nat} (href : n.has "$ref" = .ok false)
    (hmembers : n.Composes members)
    (h : doc.mergeMembers (doc.flattenWithin label fuel) label n .empty members =
      Shape.mergeAll label .empty above) :
    doc.flattenWithin label (fuel + 1) n = Shape.mergeAll label .empty (above ++ [n]) := by
  obtain ⟨hall, value, hget, hitems⟩ := hmembers
  have hself : doc.dereference (doc.size + 2) n = .ok n := by
    rw [dereference, href]
    rfl
  rw [flattenWithin, hget, except_ok_bind, hitems, except_ok_bind, mergeMembers_append, h,
    Shape.mergeAll_append]
  refine bind_congr fun a => ?_
  rw [mergeMembers_plain hself (.inr ⟨true, hall, rfl⟩)]
  exact bind_pure _

/-- From some bound on, members are merged by merging all that they are composed of. The induction
is on what they are composed of, in which each level of `allOf` has its own part. -/
theorem Lineage.mergeMembers_eq (label : String) (h : doc.Lineage members l)
    (hwell : doc.WellFormed) (hcounted : doc.Counted) (hschema : doc.Part schema)
    (hc : doc.Composable schema) (hmembers : ∀ m ∈ members, HasMember schema m)
    (hl : ∀ n ∈ l, n.HasTextKeys) :
    ∃ depth, ∀ fuel, depth ≤ fuel → ∀ {a : Shape}, a.IsKeyed →
      doc.mergeMembers (doc.flattenWithin label fuel) label schema a members =
        Shape.mergeAll label a l := by
  induction h generalizing schema with
  | nil => exact ⟨0, fun _ _ _ _ => rfl⟩
  | @plain member part members below hpart hall _ ih =>
    obtain ⟨hmember, hmembers⟩ := List.forall_mem_cons.mp hmembers
    obtain ⟨hn, hl⟩ := List.forall_mem_cons.mp hl
    obtain ⟨depth, ih⟩ := ih hschema hc hmembers hl
    refine ⟨depth, fun fuel hfuel a ha => ?_⟩
    rw [mergeMembers_plain (hpart.dereference hcounted (hmember.part hschema)) (.inl hall)]
    refine (except_bind_congr rfl fun b hb => ?_).trans (Shape.mergeAll_append a [part] below).symm
    exact ih fuel hfuel (Shape.isKeyed_of_mergeAll ha (List.forall_mem_singleton.mpr hn) hb)
  | @composed member part inner above members below hpart hinner _ _ ihinner ih =>
    obtain ⟨hmember, hmembers⟩ := List.forall_mem_cons.mp hmembers
    have hl' : ∀ n ∈ above ++ [part], n.HasTextKeys := fun n hn => hl n (by simp at hn ⊢; tauto)
    have hbelow : ∀ n ∈ below, n.HasTextKeys := fun n hn => hl n (by simp [hn])
    have hedge : doc.Member schema part := ⟨member, hmember, hpart⟩
    obtain ⟨depth, ihinner⟩ := ihinner (hedge.part hschema) (hc.of_member hedge)
      (fun m hm => hinner.hasMember hm) fun n hn => hl' n (List.mem_append_left _ hn)
    obtain ⟨depth', ih⟩ := ih hschema hc hmembers hbelow
    refine ⟨max (depth + 1) depth', fun fuel hfuel a ha => ?_⟩
    obtain ⟨fuel, rfl⟩ :=
      Nat.exists_eq_add_of_le' (Nat.le_trans (Nat.le_add_left 1 depth) (le_of_max_le_left hfuel))
    have hnested : doc.memberShape (doc.flattenWithin label (fuel + 1)) label schema member =
        Shape.mergeAll label .empty (above ++ [part]) := by
      rw [memberShape, hpart.dereference hcounted (hmember.part hschema), except_ok_bind, hinner.1,
        except_ok_bind, Bool.true_and, if_pos (bne_iff_ne.mpr (hc.address_ne hwell hschema hedge))]
      refine flattenWithin_succ_eq hpart.2 hinner (ihinner fuel ?_ Shape.isKeyed_empty)
      omega
    have happend : Shape.mergeAll label a (above ++ part :: below) =
        Shape.mergeAll label .empty (above ++ [part]) >>= fun b =>
        Shape.mergeAll label (a.merge b) below := by
      rw [List.append_cons, Shape.mergeAll_append, Shape.mergeAll_eq ha hl', bind_assoc]
      rfl
    rw [mergeMembers, hnested, happend]
    refine except_bind_congr rfl fun b hb => ih (fuel + 1) (le_of_max_le_right hfuel) (ha.merge ?_)
    obtain ⟨es, hes, -⟩ := Shape.isKeyed_of_mergeAll Shape.isKeyed_empty hl' hb
    exact ⟨es, hes⟩

/-- The flattening of a composable schema merges all schemas that it is composed of, one after the
other. -/
theorem Composable.flatten_eq (hc : doc.Composable n) (hwell : doc.WellFormed)
    (hcounted : doc.Counted) (hn : doc.Part n) (href : n.has "$ref" = .ok false)
    (hlists : doc.Lists n l) (hl : ∀ n ∈ l, n.HasTextKeys) (label : String) :
    doc.flatten n label = Shape.mergeAll label .empty l := by
  obtain ⟨members, above, hmembers, habove, rfl⟩ := hlists
  obtain ⟨depth, hmerge⟩ := habove.mergeMembers_eq label hwell hcounted hn hc
    (fun m hm => hmembers.hasMember hm) fun n hn => hl n (List.mem_append_left _ hn)
  rw [flatten, hcounted.flattenWithin_eq hn (Nat.le_refl _) (Nat.le_add_left _ (depth + 1))]
  obtain ⟨fuel, hfuel⟩ : ∃ fuel, depth + 1 + (doc.size + 2) = fuel + 1 :=
    ⟨depth + (doc.size + 2), by omega⟩
  rw [hfuel]
  exact flattenWithin_succ_eq href hmembers (hmerge fuel (by omega) Shape.isKeyed_empty)

end Document

end ServiceContract
