import ServiceContract.Proofs.Schema.Composition
import ServiceContract.Proofs.Schema.StandsFor

/-!
# Required fields

A field of a record is required if the schema of the record lists its wire name among the required
ones, or one of the schemas that its members lead to does, in turn. A schema with an `allOf` that is
merged is the schema of its record itself, so that all its own required names count, and those of
its members. If all its members but one only annotate, it is a wrapper: then the schema of the
record is the one that the remaining member stands for, and what the wrapper lists itself has no
effect.

## Main definitions

* `Node.ListsRequired`, `Document.RequiredBy`: the names that a schema and its members require.
* `Resolver.SharesName`: two references with the name of one component.

## Main results

* `Document.lists_iff_of_flattenWithin`: the required names of a flattened schema.
* `Document.StandsFor.requires`: what a schema with an `allOf` and its members list is required.
* `Resolver.required_of_resolve`: the required fields of the record for a schema.
-/

namespace ServiceContract

open Build Relation

/-! ### Required names -/

namespace Node

/-- The schema lists the name among those of required properties. -/
def ListsRequired (n : Node) (w : String) : Prop :=
  ∃ value items item, n.get "required" = .ok value ∧ value.itemsIfAny = .ok items ∧ item ∈ items ∧
    item.asScalar = .ok (.text w)

/-- The schema is a wrapper. -/
def IsWrapper (n : Node) : Prop :=
  ∃ m, n.Wraps m

variable {n m : Node} {w : String}

theorem has_of_hasAny {keys : List String} {key : String} (h : n.hasAny keys = .ok false)
    (hkey : key ∈ keys) :
    n.has key = .ok false := by
  induction keys with
  | nil => cases hkey
  | cons k keys ih =>
    obtain ⟨found, hfound, h⟩ := except_bind_eq_ok.mp h
    cases found with
    | true => cases h
    | false =>
      rcases List.mem_cons.mp hkey with rfl | hkey
      · exact hfound
      · exact ih h hkey

/-- What is absent reads as null. -/
theorem eq_null_of_has {key : String} (hhas : n.has key = .ok false) (hget : n.get key = .ok m) :
    m = null := by
  cases n with
  | map a es =>
    cases hget
    rw [Option.not_isSome_iff_eq_none.mp (Bool.eq_false_iff.mp (Except.ok.inj hhas))]
    rfl
  | _ => cases hget

/-- A schema without `required` lists nothing. -/
theorem not_listsRequired (h : n.has "required" = .ok false) : ¬ n.ListsRequired w := by
  rintro ⟨value, items, item, hget, hitems, hitem, -⟩
  obtain rfl := eq_null_of_has h hget
  cases hitems
  cases hitem

/-- The nodes that do not pass a test fail it. -/
theorem mem_or_of_keepIf {test : Node → Except Fault Bool} {ns ms : List Node}
    (h : keepIf test ns = .ok ms) (hn : n ∈ ns) : n ∈ ms ∨ test n = .ok false := by
  induction ns generalizing ms with
  | nil => cases hn
  | cons k ns ih =>
    obtain ⟨keep, hkeep, h⟩ := except_bind_eq_ok.mp h
    obtain ⟨rest, hrest, h⟩ := except_bind_eq_ok.mp h
    cases h
    rcases List.mem_cons.mp hn with rfl | hn
    · cases keep with
      | true => exact .inl List.mem_cons_self
      | false => exact .inr hkeep
    · refine (ih hrest hn).imp_left fun hn => ?_
      cases keep with
      | true => exact List.mem_cons_of_mem _ hn
      | false => exact hn

/-- What an `allOf` wraps is its only member that has a shape. -/
theorem Wraps.member {members : List Node} (h : n.Wraps m)
    (hmembers : n.Composes members) {k : Node} (hk : k ∈ members) :
    k = m ∨ k.hasAny shapeKeywords = .ok false := by
  obtain ⟨label, h⟩ := h
  obtain ⟨hall, value, hvalue, hitems⟩ := hmembers
  obtain ⟨isReference, -, h⟩ := except_bind_eq_ok.mp h
  split_ifs at h
  · cases h
  obtain ⟨hasMembers, hhas, h⟩ := except_bind_eq_ok.mp h
  cases hall.symm.trans hhas
  rw [if_pos rfl] at h
  obtain ⟨properties, -, h⟩ := except_bind_eq_ok.mp h
  split_ifs at h
  · cases h
  obtain ⟨shaped, hshaped, h⟩ := except_bind_eq_ok.mp h
  have hkeep : keepIf (hasAny shapeKeywords) members = .ok shaped := by
    rwa [shapedMembers, hvalue, except_ok_bind, hitems] at hshaped
  rcases shaped with _ | ⟨member, _ | _⟩
  · exact .inr ((mem_or_of_keepIf hkeep hk).resolve_left List.not_mem_nil)
  · cases h
    exact (mem_or_of_keepIf hkeep hk).imp_left List.mem_singleton.mp
  · cases h

end Node

/-- The name is listed by the schema, or required by one that its members lead to. -/
inductive Document.RequiredBy (doc : Document) (w : String) : Node → Prop
  | own {n : Node} (h : n.ListsRequired w) : RequiredBy doc w n
  | member {n m : Node} (hm : doc.Member n m) (h : RequiredBy doc w m) : RequiredBy doc w n

/-- The shape has the name among those of required properties. -/
def Shape.Lists (a : Shape) (w : String) : Prop :=
  ∃ item ∈ a.required, item.asScalar = .ok (.text w)

namespace Shape

variable {a b : Shape} {n : Node} {w : String}

theorem lists_merge : (a.merge b).Lists w ↔ a.Lists w ∨ b.Lists w := by
  simp only [Lists, merge, List.mem_append, or_and_right, exists_or]

theorem lists_iff_of_required {value : Node} (hget : n.get "required" = .ok value)
    (h : value.itemsIfAny = .ok a.required) : a.Lists w ↔ n.ListsRequired w := by
  constructor
  · rintro ⟨item, hitem, hname⟩
    exact ⟨value, _, item, hget, h, hitem, hname⟩
  · rintro ⟨value', items, item, hget', h', hitem, hname⟩
    cases hget.symm.trans hget'
    cases h.symm.trans h'
    exact ⟨item, hitem, hname⟩

theorem lists_iff_of_ofMember (h : ofMember n = .ok a) : a.Lists w ↔ n.ListsRequired w := by
  obtain ⟨properties, -, h⟩ := except_bind_eq_ok.mp h
  obtain ⟨es, -, h⟩ := except_bind_eq_ok.mp h
  obtain ⟨value, hvalue, h⟩ := except_bind_eq_ok.mp h
  obtain ⟨names, hnames, h⟩ := except_bind_eq_ok.mp h
  cases h
  exact lists_iff_of_required hvalue hnames

theorem lists_iff_of_ofObject (h : ofObject n = .ok a) : a.Lists w ↔ n.ListsRequired w := by
  obtain ⟨value, hvalue, h⟩ := except_bind_eq_ok.mp h
  obtain ⟨names, hnames, h⟩ := except_bind_eq_ok.mp h
  obtain ⟨properties, -, h⟩ := except_bind_eq_ok.mp h
  obtain ⟨es, -, h⟩ := except_bind_eq_ok.mp h
  cases h
  exact lists_iff_of_required hvalue hnames

end Shape

/-! ### Flattening -/

namespace Document

variable {doc : Document} {schema n m : Node} {label w : String} {shape part : Shape}
  {flatten : Node → Except Fault Shape}

/-- What is found by following references is where they lead to. -/
theorem leads_of_dereference {fuel : Nat} (h : doc.dereference fuel n = .ok m) : doc.Leads n m := by
  induction fuel generalizing n with
  | zero => cases h
  | succ fuel ih =>
    obtain ⟨isReference, href, h⟩ := except_bind_eq_ok.mp h
    cases isReference with
    | true =>
      obtain ⟨value, hvalue, h⟩ := except_bind_eq_ok.mp h
      obtain ⟨ref, htext, h⟩ := except_bind_eq_ok.mp h
      obtain ⟨target, htarget, h⟩ := except_bind_eq_ok.mp h
      obtain ⟨hway, hend⟩ := ih h
      exact ⟨.head ⟨value, ref, href, hvalue, htext, htarget⟩ hway, hend⟩
    | false =>
      cases h
      exact ⟨.refl, href⟩

/-- A schema that is no reference leads to itself. -/
theorem Leads.eq_self (h : doc.Leads n m) (href : n.has "$ref" = .ok false) : m = n :=
  h.unique ⟨.refl, href⟩

/-- The shape of a member is that of the schema that it leads to, by itself or flattened. -/
theorem memberShape_eq_ok (h : doc.memberShape flatten label schema n = .ok part) :
    ∃ m, doc.Leads n m ∧
      ((m.has "allOf" = .ok true ∧ m.address ≠ schema.address ∧ flatten m = .ok part) ∨
        ((m.has "allOf" = .ok false ∨ m.address = schema.address) ∧
          Shape.ofMember m = .ok part)) := by
  obtain ⟨m, hm, h⟩ := except_bind_eq_ok.mp h
  refine ⟨m, leads_of_dereference hm, ?_⟩
  obtain ⟨hasMembers, hhas, h⟩ := except_bind_eq_ok.mp h
  split_ifs at h with hnested
  · rw [Bool.and_eq_true, bne_iff_ne] at hnested
    obtain ⟨rfl, hne⟩ := hnested
    exact .inl ⟨hhas, hne, h⟩
  · obtain ⟨objectLike, -, h⟩ := except_bind_eq_ok.mp h
    split_ifs at h
    refine .inr ⟨?_, h⟩
    cases hasMembers with
    | false => exact .inl hhas
    | true => exact .inr (by simpa using hnested)

/-- Merged members list what each of them lists. -/
theorem lists_iff_of_mergeMembers {members : List Node} {a : Shape}
    (h : doc.mergeMembers flatten label schema a members = .ok shape) :
    (∀ n ∈ members, ∃ part, doc.memberShape flatten label schema n = .ok part) ∧
      (shape.Lists w ↔ a.Lists w ∨
        ∃ n ∈ members, ∃ part, doc.memberShape flatten label schema n = .ok part ∧
          part.Lists w) := by
  induction members generalizing a with
  | nil =>
    cases h
    simp
  | cons n members ih =>
    obtain ⟨part, hpart, h⟩ := except_bind_eq_ok.mp h
    obtain ⟨hparts, hlists⟩ := ih h
    refine ⟨List.forall_mem_cons.mpr ⟨⟨part, hpart⟩, hparts⟩, ?_⟩
    rw [hlists, Shape.lists_merge, or_assoc, List.exists_mem_cons_iff]
    refine or_congr_right (or_congr_left ?_)
    simp [hpart]

/-- A schema without an `allOf` requires what it lists. -/
theorem requiredBy_iff_of_plain (hall : n.has "allOf" = .ok false) :
    doc.RequiredBy w n ↔ n.ListsRequired w := by
  constructor
  · rintro (hlists | ⟨⟨_, ⟨hhas, -⟩, -⟩, -⟩)
    · exact hlists
    · cases hall.symm.trans hhas
  · exact .own

/-- In a document whose parts are told by their addresses two schemas at the address of an `allOf`
are the same. -/
theorem Addressed.eq_of_allOf (hdoc : doc.Addressed) (hn : doc.Part n) (hm : doc.Part m)
    {members : List Node} (hmembers : n.Composes members) (heq : m.address = n.address) :
    m = n := by
  refine (hdoc.unique hn hm heq.symm fun hnowhere => ?_).symm
  obtain ⟨hall, value, hget, -⟩ := hmembers
  rcases hdoc.nowhere hn hnowhere with rfl | rfl | ⟨c, rfl⟩
  · cases hget
  · cases hall
  · cases hget

/-- A schema counts among its own members by itself. -/
theorem lists_iff_of_memberShape_self (href : schema.has "$ref" = .ok false)
    (h : doc.memberShape flatten label schema schema = .ok part) :
    part.Lists w ↔ schema.ListsRequired w := by
  obtain ⟨m, hleads, hcases⟩ := memberShape_eq_ok h
  obtain rfl := hleads.eq_self href
  rcases hcases with ⟨-, hne, -⟩ | ⟨-, hown⟩
  · exact absurd rfl hne
  · exact Shape.lists_iff_of_ofMember hown

section Members

variable {members : List Node} (hcomposes : schema.Composes members) (hpart : doc.Part schema)
  (hflatten : ∀ {m part}, doc.Part m → m.has "$ref" = .ok false → m.has "allOf" = .ok true →
    flatten m = .ok part → (part.Lists w ↔ doc.RequiredBy w m))
include hcomposes hpart hflatten

/-- What the shape of a member lists is required. -/
theorem requiredBy_of_memberShape (hn : n ∈ members)
    (h : doc.memberShape flatten label schema n = .ok part) (hlists : part.Lists w) :
    doc.RequiredBy w schema := by
  obtain ⟨m, hleads, hcases⟩ := memberShape_eq_ok h
  have hm : doc.Member schema m := ⟨n, hcomposes.hasMember hn, hleads⟩
  rcases hcases with ⟨hnested, -, hshape⟩ | ⟨-, hown⟩
  · exact .member hm ((hflatten (hm.part hpart) hleads.2 hnested hshape).mp hlists)
  · exact .member hm (.own ((Shape.lists_iff_of_ofMember hown).mp hlists))

/-- What is required is listed by the shape of a member or of the schema itself. -/
theorem exists_lists_of_requiredBy (hdoc : doc.Addressed) (href : schema.has "$ref" = .ok false)
    (hshapes : ∀ n ∈ members ++ [schema], ∃ part, doc.memberShape flatten label schema n = .ok part)
    (h : doc.RequiredBy w schema) :
    ∃ n ∈ members ++ [schema], ∃ part, doc.memberShape flatten label schema n = .ok part ∧
      part.Lists w := by
  -- A schema may be a member of itself, which adds nothing: so the induction is on the requirement.
  generalize hk : schema = k at h
  induction h with
  | own hlisted =>
    subst hk
    have hmem : schema ∈ members ++ [schema] := List.mem_append_right _ List.mem_cons_self
    obtain ⟨part, hshape⟩ := hshapes schema hmem
    exact ⟨schema, hmem, part, hshape, (lists_iff_of_memberShape_self href hshape).mpr hlisted⟩
  | @member k m hm hrequires ih =>
    subst hk
    have hmpart := hm.part hpart
    obtain ⟨n, ⟨-, value', members', hvalue', hmembers', hn⟩, hleads⟩ := hm
    obtain ⟨-, value, hvalue, hmembers⟩ := id hcomposes
    cases hvalue.symm.trans hvalue'
    cases hmembers.symm.trans hmembers'
    have hmem : n ∈ members ++ [schema] := List.mem_append_left _ hn
    obtain ⟨part, hshape⟩ := hshapes n hmem
    obtain ⟨m', hleads', hcases⟩ := memberShape_eq_ok hshape
    obtain rfl := hleads.unique hleads'
    rcases hcases with ⟨hnested, -, hnestedShape⟩ | ⟨hplain | heq, hown⟩
    · exact ⟨n, hmem, part, hshape, (hflatten hmpart hleads.2 hnested hnestedShape).mpr hrequires⟩
    · have hlisted := (requiredBy_iff_of_plain hplain).mp hrequires
      exact ⟨n, hmem, part, hshape, (Shape.lists_iff_of_ofMember hown).mpr hlisted⟩
    · obtain rfl := hdoc.eq_of_allOf hpart hmpart hcomposes heq
      exact ih rfl

end Members

/-- The shape of a flattened schema lists the names that the schema requires. -/
theorem lists_iff_of_flattenWithin (hdoc : doc.Addressed) {fuel : Nat} (hpart : doc.Part schema)
    (href : schema.has "$ref" = .ok false) (hall : schema.has "allOf" = .ok true)
    (h : doc.flattenWithin label fuel schema = .ok shape) :
    shape.Lists w ↔ doc.RequiredBy w schema := by
  induction fuel generalizing schema shape with
  | zero => cases h
  | succ fuel ih =>
    obtain ⟨value, hvalue, h⟩ := except_bind_eq_ok.mp h
    obtain ⟨members, hmembers, h⟩ := except_bind_eq_ok.mp h
    have hcomposes : schema.Composes members := ⟨hall, value, hvalue, hmembers⟩
    obtain ⟨hshapes, hlists⟩ := lists_iff_of_mergeMembers (w := w) h
    rw [hlists]
    constructor
    · rintro (⟨_, hitem, -⟩ | ⟨n, hn, part, hshape, hpartLists⟩)
      · cases hitem
      rcases List.mem_append.mp hn with hn | hn
      · exact requiredBy_of_memberShape hcomposes hpart ih hn hshape hpartLists
      · obtain rfl := List.mem_singleton.mp hn
        exact .own ((lists_iff_of_memberShape_self href hshape).mp hpartLists)
    · exact fun hrequires =>
        .inr (exists_lists_of_requiredBy hcomposes hpart ih hdoc href hshapes hrequires)

/-! ### What a schema with an `allOf` stands for -/

/-- A schema with an `allOf` stands for one that requires what it lists itself, unless it is a
wrapper, and what the schemas list that its members lead to, unless both are wrappers. -/
theorem StandsFor.requires {target : Node} (h : doc.StandsFor n target)
    (hall : n.has "allOf" = .ok true) (href : n.has "$ref" = .ok false)
    (hm : m = n ∨ doc.Member n m) (hwrapper : n.IsWrapper → ¬ m.IsWrapper)
    (hlisted : m.ListsRequired w) : doc.RequiredBy w target := by
  rcases ReflTransGen.cases_head h.1 with rfl | ⟨layer, hfirst, -⟩
  · rcases hm with rfl | hm
    · exact .own hlisted
    · exact .member hm (.own hlisted)
  rcases hfirst with hwraps | ⟨_, _, hhas, -⟩
  swap
  · cases href.symm.trans hhas
  have hproper : ¬ m.IsWrapper := hwrapper ⟨layer, hwraps⟩
  rcases hm with rfl | ⟨k, ⟨-, value, members, hvalue, hmembers, hk⟩, hleads⟩
  · exact absurd ⟨layer, hwraps⟩ hproper
  rcases hwraps.member ⟨hall, value, hvalue, hmembers⟩ hk with rfl | hunshaped
  · -- What the remaining member leads to is no wrapper, so that the schema stands for it.
    have hway : ReflTransGen doc.Delegates n m :=
      .head (.inl hwraps) (ReflTransGen.mono (fun _ _ => .inr) _ _ hleads.1)
    rcases ReflTransGen.cases_head (h.of_delegates hway).1 with rfl |
      ⟨_, hwraps' | ⟨_, _, hhas, -⟩, -⟩
    · exact .own hlisted
    · exact absurd ⟨_, hwraps'⟩ hproper
    · cases hleads.2.symm.trans hhas
  · obtain rfl := hleads.eq_self (Node.has_of_hasAny hunshaped (by decide))
    exact absurd hlisted (Node.not_listsRequired (Node.has_of_hasAny hunshaped (by decide)))

end Document

namespace Resolver

variable {r : Resolver} {start s t u : Session} {schema : Node} {name hint w : String}

/-! ### Records -/

theorem mem_requiredNames_iff {ns : List Node} {ss : List Scalar} (h : requiredNames ns = .ok ss)
    {k : Scalar} :
    k ∈ ss ↔ ∃ n ∈ ns, n.asScalar = .ok k := by
  induction ns generalizing ss with
  | nil =>
    cases h
    simp
  | cons n ns ih =>
    obtain ⟨a, ha, h⟩ := except_bind_eq_ok.mp h
    obtain ⟨as, has, h⟩ := except_bind_eq_ok.mp h
    cases h
    rw [List.mem_cons, ih has, List.exists_mem_cons_iff, ha, Except.ok.injEq, eq_comm]

theorem lists_iff_of_shapeOf (hdoc : r.doc.Addressed) (hpart : r.doc.Part schema)
    (href : schema.has "$ref" = .ok false) {shape : Shape} (h : r.shapeOf schema name = .ok shape) :
    shape.Lists w ↔ r.doc.RequiredBy w schema := by
  obtain ⟨hasMembers, hall, h⟩ := except_bind_eq_ok.mp h
  cases hasMembers with
  | true => exact Document.lists_iff_of_flattenWithin hdoc hpart href hall h
  | false =>
    rw [Document.requiredBy_iff_of_plain hall]
    exact Shape.lists_iff_of_ofObject h

/-- The fields of the record for a schema are required if the schema requires their wire names. -/
theorem Shows.required_iff (hdoc : r.doc.Addressed) (hpart : r.doc.Part schema)
    (href : schema.has "$ref" = .ok false) {fields : List Field} {description : String}
    (h : r.Shows schema (.record name fields description)) :
    ∀ f ∈ fields, f.required = true ↔ r.doc.RequiredBy f.wireName schema := by
  cases h with
  | record hblueprint hfields =>
    obtain ⟨shape, hshape, hnames, rfl⟩ := shapeOf_of_blueprint hblueprint
    have hfor {properties : List (Scalar × Node)} {required : List Scalar} {fields : List Field}
        (h : List.Forall₂ (Field.IsFor required) properties fields) :
        ∀ f ∈ fields, f.required = required.contains (.text f.wireName) := by
      induction h with
      | nil => exact fun f hf => absurd hf List.not_mem_nil
      | cons he _ ih => exact List.forall_mem_cons.mpr ⟨he.key ▸ he.required, ih⟩
    intro f hf
    rw [hfor hfields f hf, List.contains_iff_mem, mem_requiredNames_iff hnames,
      ← lists_iff_of_shapeOf hdoc hpart href hshape]
    rfl

variable (r) in
/-- The origin is a reference, and another reference has the name too, that of a component which
both have. -/
def SharesName (s : Session) (o : Origin) (name : String) : Prop :=
  ∃ ref ref', o = .reference ref ∧ ref' ≠ ref ∧ componentName? s.components ref = some name ∧
    componentName? s.components ref' = some name ∧ r.Named s (.reference ref') name

/-- A name that two references do not share belongs to one origin. -/
theorem Apart.eq_of_named (h : r.Apart s) {o o' : Origin} (ho : r.Named s o name)
    (ho' : r.Named s o' name) (hshares : ¬ r.SharesName s o name) : o' = o := by
  by_cases hc : name ∈ s.componentNames
  · obtain ⟨ref, rfl, href⟩ := h.component ho hc
    obtain ⟨ref', rfl, href'⟩ := h.component ho' hc
    by_contra hne
    exact hshares ⟨ref, ref', rfl, fun heq => hne (heq ▸ rfl), href, href', ho'⟩
  · exact h.inj ho' ho hc

/-- If a schema resolves to a declared type, then in every later session the fields of the record
with the name of the type, as long as no two references share the name, are required exactly if the
schema that it stands for requires their wire names. For every schema with an `allOf` on the way the
fields are required that the schema lists itself, unless it is a wrapper, and those that are listed
by a schema that one of its members leads to, unless both are wrappers. -/
theorem required_of_resolve (hdoc : r.doc.Addressed) (hstart : Session.start r.doc = .ok start)
    (hs : r.Reaches start s) (hpart : r.doc.Part schema) {fuel : Nat} (hle : fuel ≤ r.stepBound)
    (hrun : r.resolveWithin fuel schema hint s = (.ok (.declared name), t)) (hu : r.Reaches t u) :
    ∃ o target, r.doc.StandsFor schema target ∧ r.Behind o target ∧ r.Named u o name ∧
      ∀ {fields description}, .record name fields description ∈ u.declarations →
        ¬ r.SharesName u o name →
        ∀ f ∈ fields, (f.required = true ↔ r.doc.RequiredBy f.wireName target) ∧
          ∀ n m, ReflTransGen r.doc.Delegates schema n → n.has "allOf" = .ok true →
            n.has "$ref" = .ok false →
            (m = n ∨ r.doc.Member n m) → (n.IsWrapper → ¬ m.IsWrapper) →
            m.ListsRequired f.wireName →
              f.required = true := by
  have ht : r.Reaches start t := by
    have hresolved := hs.resolved hle hpart (.resolveWithin fuel schema hint s)
    rwa [hrun] at hresolved
  have hstanding : r.Standing t := ht.later.standing (start_standing hstart)
  obtain ⟨o, target, hstands, hbehind, hnamed⟩ :=
    (hstanding.stands hrun).of_extends hu.later.extends
  have hlater : r.Reaches start u := ht.trans hu
  refine ⟨o, target, hstands, hbehind, hnamed, fun {fields description} hd hshares f hf => ?_⟩
  obtain ⟨o', schema', hnamed', hbehind', hpart', hshows⟩ :=
    hlater.accounted (start_accounted hstart) _ hd
  obtain rfl := (hlater.later.makes.apart (start_apart hstart)).eq_of_named hnamed hnamed' hshares
  obtain rfl := hbehind.unique hdoc hbehind' (hstands.part hpart) hpart'
  have hiff := hshows.required_iff hdoc hpart' hstands.2.1 f hf
  refine ⟨hiff, fun n m hway hall href hm hwrapper hlisted => hiff.mpr ?_⟩
  exact (hstands.of_delegates hway).requires hall href hm hwrapper hlisted

/-! ### A merged schema and a wrapper -/

/-- The schema of an object with the given properties and required names. -/
def objectValue (properties required : List String) : Value :=
  .map [(.text "properties", .map (properties.map fun key => (.text key, .map []))),
    (.text "required", .list (required.map .text))]

/-- A schema with two members that requires `size`. -/
def allOfValue (first second : Value) : Value :=
  .map [(.text "allOf", .list [first, second]), (.text "required", .list [.text "size"])]

/-- Two members with properties. -/
def mergedValue : Value := allOfValue (objectValue ["name"] ["name"]) (objectValue ["size"] [])

/-- A member with properties and one that only annotates. -/
def wrappedValue : Value :=
  allOfValue (objectValue ["name", "size"] ["name"])
    (.map [(.text "description", .text "A name and a size")])

/-- A document with these schemas. -/
def requiring : Resolver where
  doc := .ofValue (.map [(.text "merged", mergedValue), (.text "wrapped", wrappedValue)])
  primitives := pythonPrimitives

def mergedNode : Node := .ofValue [.key (.text "merged")] mergedValue
def wrappedNode : Node := .ofValue [.key (.text "wrapped")] wrappedValue

/-- The record with the properties of the members. -/
def sizedRecord (sizeRequired : Bool) : List Field :=
  [⟨"name", "name", .primitive "Any", true, ""⟩,
    ⟨"size", "size", .primitive "Any", sizeRequired, ""⟩]

/-- In a session in which no reference has a type no name is shared. -/
theorem not_sharesName {o : Origin} (h : s.references = []) : ¬ r.SharesName s o name := by
  rintro ⟨_, _, -, -, -, -, -, hlookup⟩
  rw [h] at hlookup
  cases hlookup

/-- Of the merged schema all required names count. Of the wrapper only those of the member that is
left do. -/
theorem required_of_resolve_sized :
    (∃ start t fields, Session.start requiring.doc = .ok start ∧
      requiring.resolve mergedNode "Use" start = (.ok (.declared "Use"), t) ∧
      .record "Use" fields "" ∈ t.declarations ∧
      ∀ f ∈ fields, f.wireName = "name" ∨ f.wireName = "size" → f.required = true) ∧
    ∃ start t fields, Session.start requiring.doc = .ok start ∧
      requiring.resolve wrappedNode "Use" start = (.ok (.declared "Use"), t) ∧
      .record "Use" fields "" ∈ t.declarations ∧
      (∀ f ∈ fields, f.wireName = "name" → f.required = true) ∧
      ∃ f ∈ fields, f.wireName = "size" ∧ f.required = false := by
  have hdoc : requiring.doc.Addressed := (Document.wellFormed_ofValue (by decide)).toAddressed
  have hparts := requiring.doc.part_hereditary
  constructor
  · obtain ⟨start, hstart, t, hrun, href, hd⟩ : ∃ start, Session.start requiring.doc = .ok start ∧
        ∃ t, requiring.resolve mergedNode "Use" start = (.ok (.declared "Use"), t) ∧
        t.references = [] ∧
          .record "Use" (sizedRecord true) "" ∈ t.declarations :=
          ⟨_, rfl, _, rfl, rfl, List.mem_cons_self⟩
    have hpart : requiring.doc.Part mergedNode :=
      hparts.resolve (show requiring.doc.resolve "#/merged" = .ok mergedNode from rfl)
    obtain ⟨o, target, -, -, -, hfields⟩ :=
      required_of_resolve hdoc hstart .refl hpart (Nat.le_refl _) hrun .refl
    refine ⟨start, t, _, hstart, hrun, hd, fun f hf hname => ?_⟩
    have hproper : ¬ mergedNode.IsWrapper := by
      rintro ⟨_, _, h⟩
      cases h
    have hlisted (m : Node) := (hfields hd (not_sharesName href) f hf).2 mergedNode m .refl rfl rfl
    rcases hname with hname | hname
    · exact hlisted _ (.inr ⟨_, ⟨rfl, _, _, rfl, rfl, List.mem_cons_self⟩, .refl, rfl⟩)
        (fun h => absurd h hproper) (hname ▸ ⟨_, _, _, rfl, rfl, List.mem_cons_self, rfl⟩)
    · exact hlisted _ (.inl rfl) (fun h => absurd h hproper)
        (hname ▸ ⟨_, _, _, rfl, rfl, List.mem_cons_self, rfl⟩)
  · obtain ⟨start, hstart, t, hrun, href, hd⟩ : ∃ start, Session.start requiring.doc = .ok start ∧
        ∃ t, requiring.resolve wrappedNode "Use" start = (.ok (.declared "Use"), t) ∧
        t.references = [] ∧
          .record "Use" (sizedRecord false) "" ∈ t.declarations :=
          ⟨_, rfl, _, rfl, rfl, List.mem_cons_self⟩
    have hpart : requiring.doc.Part wrappedNode :=
      hparts.resolve (show requiring.doc.resolve "#/wrapped" = .ok wrappedNode from rfl)
    obtain ⟨o, target, -, -, -, hfields⟩ :=
      required_of_resolve hdoc hstart .refl hpart (Nat.le_refl _) hrun .refl
    refine ⟨start, t, _, hstart, hrun, hd, fun f hf hname => ?_,
      _, List.mem_cons_of_mem _ List.mem_cons_self, rfl, rfl⟩
    refine (hfields hd (not_sharesName href) f hf).2 wrappedNode _ .refl rfl rfl
      (.inr ⟨_, ⟨rfl, _, _, rfl, rfl, List.mem_cons_self⟩, .refl, rfl⟩) (fun _ h => ?_)
      (hname ▸ ⟨_, _, _, rfl, rfl, List.mem_cons_self, rfl⟩)
    obtain ⟨_, _, h⟩ := h
    cases h

/-- What a wrapper lists itself is not required. -/
theorem not_required_wrapped :
    ¬ ∀ (r : Resolver) (start t : Session) (schema : Node) (hint name : String), r.doc.WellFormed →
    Session.start r.doc = .ok start → r.doc.Part schema → schema.has "allOf" = .ok true →
    schema.has "$ref" = .ok false → r.resolve schema hint start = (.ok (.declared name), t) →
      ∀ fields description, .record name fields description ∈ t.declarations →
        ∀ m, m = schema ∨ r.doc.Member schema m →
          ∀ f ∈ fields, m.ListsRequired f.wireName → f.required = true := by
  intro hall
  have hpart : requiring.doc.Part wrappedNode :=
    requiring.doc.part_hereditary.resolve
      (show requiring.doc.resolve "#/wrapped" = .ok wrappedNode from rfl)
  have hrequired :=
    hall requiring _ _ wrappedNode "Use" "Use" (Document.wellFormed_ofValue (by decide)) rfl hpart
      rfl rfl rfl (sizedRecord false) "" List.mem_cons_self wrappedNode (.inl rfl) _
    (List.mem_cons_of_mem _ List.mem_cons_self) ⟨_, _, _, rfl, rfl, List.mem_cons_self, rfl⟩
  cases hrequired

end Resolver

end ServiceContract
