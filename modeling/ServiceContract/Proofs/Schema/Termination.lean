import ServiceContract.Proofs.Schema.Acyclic
import ServiceContract.Proofs.Schema.Cover
import ServiceContract.Proofs.Schema.Fuel
import ServiceContract.Proofs.Schema.Size
import ServiceContract.Proofs.Session.Budget

/-!
# Resolution comes to an end

Where the flattening of `allOf` does not go round in a circle, every resolution comes to an end,
whatever else the schemas say about each other. A step of resolution goes to a smaller schema, or it
uses up some of the budget of the session and goes anywhere in the document. So the budget and the
size of the schema together bound the number of steps inside one another.

A record has its name in the session before its fields are resolved, so that the budget is smaller
for them; the same holds for an alias in progress, which is taken off again afterwards.

## Main definitions

* `Resolver.Ends`: a step comes to an end from every session with a budget.

## Main results

* `Resolver.resolveStep_ends`: one step of resolution.
* `Resolver.resolveWithin_ends`: a bound on the number of steps inside one another.
* `Resolver.resolve_ends`: resolution comes to an end.
-/

namespace ServiceContract

open Build

/-- A schema that declares a type is no reference. -/
theorem Node.has_ref_of_declaresType {schema : Node} (h : schema.declaresType = .ok true) :
    schema.has "$ref" = .ok false := by
  obtain ⟨isReference, href, h⟩ := except_bind_eq_ok.mp h
  cases isReference with
  | true => cases h
  | false => exact href

namespace Resolver

variable {r : Resolver} {b c : Nat} {schema : Node} {resolve : Node → String → Build TypeExpr}

variable (r) in
/-- From every session with at most the given budget, the step comes to an end. -/
def Ends {α : Type} (b : Nat) (m : Build α) : Prop :=
  ∀ s, s.budget r.doc ≤ b → FailsWith (· ≠ .endless) (m s).1

namespace Ends

variable {α β : Type}

theorem of_fails {m : Build α} (h : Fails (· ≠ .endless) m) : r.Ends b m := fun s _ => h s

/-- The second step has no larger budget than the first one. -/
theorem bind {m : Build α} {k : α → Build β} (hm : r.Ends b m) (hgrows : Moves r.Grows m)
    (hk : ∀ a, r.Ends b (k a)) : r.Ends b (m >>= k) := by
  intro s hs
  refine failsWith_bind (hm s hs) fun {a t} hrun => hk a t ?_
  have hle := (hgrows s).budget_le r.doc
  rw [hrun] at hle
  exact Nat.le_trans hle hs

theorem lift_bind {x : Except Fault α} {k : α → Build β} (hx : FailsWith (· ≠ .endless) x)
    (hk : ∀ a, r.Ends b (k a)) : r.Ends b ((liftM x : Build α) >>= k) :=
  fun s hs => failsWith_lift_bind hx fun _ => hk _ s hs

end Ends

/-- A schema from which a declaration is made is a map, and an inline schema is not the empty
one. -/
theorem mem_subnodes_of_inline (htree : r.doc.IsTree) (hpart : r.doc.Part schema)
    {label name : String} (hform : r.form schema label = .ok .inline) {blueprint : Blueprint}
    (hblueprint : r.blueprint schema name = .ok blueprint) : schema ∈ r.doc.root.subnodes := by
  rcases (htree.bounds hpart).mem with hmem | hblank | ⟨a, k, rfl⟩
  · exact hmem
  · exact absurd hform (form_ne_inline hblank label)
  · cases hblueprint

/-! ### One step of resolution -/

section Step

variable (hgrows : ∀ n hint, Moves r.Grows (resolve n hint))
include hgrows

theorem resolveFields_ends {properties : List (Scalar × Node)}
    (hf : ∀ e ∈ properties, ∀ hint, r.Ends c (resolve e.2.orEmpty hint)) (owner : String)
    (required : List Scalar) : r.Ends c (resolveFields resolve owner required properties) := by
  have hP := readingFaults_ne_endless
  induction properties with
  | nil => exact .of_fails (.pure _)
  | cons e properties ih =>
    obtain ⟨he, hes⟩ := List.forall_mem_cons.mp hf
    refine .lift_bind (hP.asText _) fun wireName => .bind (he _) (hgrows _ _) fun type => ?_
    refine .lift_bind (hP.get _ _) fun value =>
      .lift_bind (hP.trimmedText value) fun description => ?_
    exact .bind (ih hes) (resolveFields_moves hgrows _ _ _) fun fields => .of_fails (.pure _)

variable (htree : r.doc.IsTree) (hacyclic : r.doc.AllOfAcyclic)
  (hfewer : ∀ {n c}, r.doc.Part n → c < b → ∀ hint, r.Ends c (resolve n hint))
include htree hacyclic hfewer

/-- The declaration of a schema comes to an end from a session with a smaller budget. -/
theorem declareType_ends (hpart : r.doc.Part schema) (href : schema.has "$ref" = .ok false)
    (name : String) {s : Session}
    (hs : ∀ {blueprint}, r.blueprint schema name = .ok blueprint → s.budget r.doc < b) :
    FailsWith (· ≠ .endless) (r.declareType resolve schema name s).1 := by
  have hflatten (hall : schema.has "allOf" = .ok true) :=
    hacyclic.flatten_ends htree hpart href hall name
  rw [declareType_eq]
  refine failsWith_lift_bind (readingFaults_ne_endless.blueprint hflatten)
    fun {blueprint} hblueprint => ?_
  cases blueprint with
  | enumeration => exact Fails.declare _ s
  | record required properties description =>
    have hparts := r.doc.part_hereditary.blueprint rfl hpart hblueprint
    have hfields := resolveFields_ends hgrows (c := s.budget r.doc)
      (fun e he => hfewer (r.doc.part_hereditary.orEmpty (hparts e he)) (hs hblueprint))
      name required
    exact failsWith_bind (hfields s (Nat.le_refl _)) fun _ => Fails.declare _ _

/-- A reference gets a type or gets in progress before resolution goes on. -/
theorem resolveReference_ends {ref : String} (htext : ref ∈ r.doc.texts) :
    r.Ends b (r.resolveReference resolve ref) := by
  intro s hs
  by_cases hlookup : s.references.lookup ref = none
  · rcases htarget : r.target ref with fault | ⟨schema, declares⟩
    · have hends : FailsWith (· ≠ .endless) (r.target ref) :=
        readingFaults_ne_endless.target fun n hn =>
          htree.unwrap_ends (r.doc.part_hereditary.resolve hn) _
      rw [resolveReference_of_error hlookup htarget]
      exact .error (hends htarget)
    have hpart : r.doc.Part schema := r.doc.part_hereditary.target rfl htarget
    cases declares with
    | true =>
      have href := Node.has_ref_of_declaresType (declaresType_of_target htarget)
      rw [resolveReference_named hlookup htarget]
      obtain ⟨name, taken, -, hreserve⟩ := reserveReference_apply ref s
      refine failsWith_bind (Fails.reserveReference ref s) fun {name' t} hrun => ?_
      cases hreserve.symm.trans hrun
      have hlt := Session.budget_lt_of_reference htext hlookup (.declared name) taken
      refine failsWith_bind ?_ fun _ => .ok _
      exact declareType_ends hgrows htree hacyclic hfewer hpart href name fun _ => by omega
    | false =>
      by_cases hresolving : ref ∈ s.resolving
      · rw [resolveReference_circular hlookup htarget hresolving]
        exact .error nofun
      · rw [resolveReference_alias hlookup htarget hresolving]
        have hlt := Session.budget_lt_of_resolving htext hresolving
        refine failsWith_bind ?_ fun _ => .ok _
        rw [whileResolving_apply]
        exact hfewer hpart (Nat.lt_of_lt_of_le hlt hs) _ _ (Nat.le_refl _)
  · obtain ⟨type, htype⟩ := Option.ne_none_iff_exists'.mp hlookup
    rw [resolveReference_cached htype]
    exact .ok type

/-- An inline schema gets a name before resolution goes on. -/
theorem resolveInline_ends (hpart : r.doc.Part schema) {label : String}
    (hform : r.form schema label = .ok .inline) (hint : String) :
    r.Ends b (r.resolveInline resolve schema hint) := by
  intro s hs
  by_cases hlookup : s.inlines.lookup schema.address = none
  · have href : schema.has "$ref" = .ok false := by
      cases formReason hform with
      | inline href => exact href
    rw [resolveInline_new hlookup]
    refine failsWith_bind (Fails.reserveInline _ _ s) fun {name t} hreserve => ?_
    refine failsWith_bind ?_ fun _ => .ok _
    cases hreserve
    refine declareType_ends hgrows htree hacyclic hfewer hpart href _ fun hblueprint => ?_
    have hmem := mem_subnodes_of_inline htree hpart hform hblueprint
    have hlt := Session.budget_lt_of_inline (Document.mem_addresses hmem) hlookup
    exact Nat.lt_of_lt_of_le (hlt _ _) hs
  · obtain ⟨name, hname⟩ := Option.ne_none_iff_exists'.mp hlookup
    rw [resolveInline_cached hname]
    exact .ok _

/-- One step of resolution comes to an end if every resolution does that it goes to: one of a
smaller schema, or one with a smaller budget. -/
theorem resolveStep_ends (hpart : r.doc.Part schema)
    (hsmaller : ∀ {n}, r.doc.Part n → n.size < schema.size → ∀ hint, r.Ends b (resolve n hint))
    (hint : String) : r.Ends b (r.resolveStep resolve schema hint) := by
  have hform : FailsWith (· ≠ .endless) (r.form schema (nonEmpty hint "<inline>")) :=
    readingFaults_ne_endless.form fun inner hlayer =>
      htree.unwrap_ends (r.doc.part_hereditary.stripLayer hpart hlayer) _
  intro s hs
  rw [resolveStep_eq]
  refine failsWith_lift_bind hform fun {form} hform => ?_
  have hinner (n : Node) (hn : n ∈ form.schemas) (hint : String) : r.Ends b (resolve n hint) :=
    hsmaller (r.doc.part_hereditary.form rfl hpart hform n hn)
      (size_lt_of_form (htree.bounds hpart).isTree hform n hn) hint
  cases form with
  | absent => exact .ok _
  | reference ref =>
    cases formReason hform with
    | reference hhas hget htext =>
      have hmem := (htree.mem_subnodes_of_get hpart hhas hget).2
      exact resolveReference_ends hgrows htree hacyclic hfewer (Document.mem_texts hmem htext) s hs
  | wrapper inner => exact hinner inner List.mem_cons_self hint s hs
  | inline => exact resolveInline_ends hgrows htree hacyclic hfewer hpart hform hint s hs
  | list items => exact failsWith_bind (hinner items List.mem_cons_self _ s hs) fun _ => .ok _
  | map values => exact failsWith_bind (hinner values List.mem_cons_self _ s hs) fun _ => .ok _
  | primitive name => exact .ok _

end Step

/-! ### Resolution -/

/-- The number of steps inside one another is bounded by the budget of the session, and the size of
the schema as long as the budget stays the same. -/
theorem resolveWithin_ends (htree : r.doc.IsTree) (hacyclic : r.doc.AllOfAcyclic) {fuel : Nat}
    (hpart : r.doc.Part schema) (hfuel : b * (r.doc.size + 1) + schema.size ≤ fuel)
    (hint : String) :
    r.Ends b (r.resolveWithin fuel schema hint) := by
  induction fuel generalizing schema b hint with
  | zero =>
    have hsize := schema.one_le_size
    omega
  | succ fuel ih =>
    have hgrows (n : Node) (hint : String) := resolveWithin_grows (r := r) fuel n hint
    refine resolveStep_ends hgrows htree hacyclic (fun {n c} hn hc => ih hn ?_) hpart
      (fun {n} hn hlt => ih hn (by omega)) hint
    have hbudget : (c + 1) * (r.doc.size + 1) ≤ b * (r.doc.size + 1) := Nat.mul_le_mul_right _ hc
    have hsize := (htree.bounds hn).size
    rw [Nat.succ_mul] at hbudget
    omega

/-- The bound of a resolver is above what the largest budget asks for. -/
theorem budget_lt_stepBound (r : Resolver) (hsize : schema.size ≤ r.doc.size) :
    3 * r.doc.size * (r.doc.size + 1) + schema.size < r.stepBound :=
  calc
    _ < (3 * r.doc.size + 1) * (r.doc.size + 1) := by
      rw [Nat.succ_mul (3 * r.doc.size)]
      omega
    _ ≤ _ := Nat.mul_le_mul (by omega) (by omega)

/-- In a document without links in which the flattening of `allOf` does not go round in a circle,
the resolution of every node comes to an end from every session: it never reaches the bound on the
number of steps inside one another, so that a larger bound makes no difference. -/
theorem resolve_ends {v : Value} (hdoc : r.doc = .ofValue v) (hacyclic : r.doc.AllOfAcyclic)
    (hpart : r.doc.Part schema) (hint : String) (s : Session) :
    (r.resolve schema hint s).1 ≠ .error .endless ∧
      ∀ fuel, r.stepBound ≤ fuel → r.resolveWithin fuel schema hint s =
        r.resolve schema hint s := by
  have htree : r.doc.IsTree := hdoc ▸ Document.isTree_ofValue v
  have hbound := Nat.le_of_lt (r.budget_lt_stepBound (htree.bounds hpart).size)
  have hends : (r.resolve schema hint s).1 ≠ .error .endless := fun hendless =>
    resolveWithin_ends htree hacyclic hpart hbound hint s (s.budget_le htree) hendless rfl
  refine ⟨hends, fun fuel hfuel => ?_⟩
  exact (resolveWithin_outlasts hfuel schema hint s).resolve_left hends

end Resolver

/-! ### Schemas that refer to themselves -/

/-- The schema that is a reference. -/
def Value.ofReference (ref : String) : Value :=
  .map [(.text "$ref", .scalar (.text ref))]

/-- A record that is a member of itself and has fields with its own type. -/
def treeValue : Value :=
  .map [
    (.text "allOf", .list [.ofReference "#/components/schemas/Tree"]),
    (.text "properties", .map [
      (.text "parent", .ofReference "#/components/schemas/Tree"),
      (.text "children", .ofReference "#/components/schemas/Forest"),
      (.text "twin", .ofReference "#/components/schemas/Twin")])]

/-- A document with that record and the list of such records, and a reference and a wrapper that
stand for each other. -/
def circles : Resolver where
  doc := .ofValue (.map [(.text "components", .map [(.text "schemas", .map [
    (.text "Tree", treeValue),
    (.text "Forest", .map [
      (.text "type", .scalar (.text "array")),
      (.text "items", .ofReference "#/components/schemas/Tree")]),
    (.text "Twin", .ofReference "#/components/schemas/Mirror"),
    (.text "Mirror", .map [(.text "oneOf", .list [.ofReference "#/components/schemas/Twin"])])])])])
  primitives := pythonPrimitives

/-- The record in the document. -/
def treeNode : Node :=
  .ofValue [.key (.text "Tree"), .key (.text "schemas"), .key (.text "components")] treeValue

/-- The reference to the record among its members. -/
def treeMember : Node :=
  .ofValue [.index 0, .key (.text "allOf"), .key (.text "Tree"), .key (.text "schemas"),
    .key (.text "components")] (.ofReference "#/components/schemas/Tree")

/-- Only the record has an `allOf`, and its only member refers to it. -/
theorem circles_allOfAcyclic : circles.doc.AllOfAcyclic := by
  have htree : circles.doc.IsTree := Document.isTree_ofValue _
  have hmember {n m : Node} (hn : circles.doc.Part n) (h : Document.HasMember n m) :
      n = treeNode ∧ m = treeMember := by
    obtain ⟨hhas, value, members, hvalue, hmembers, hm⟩ := h
    have honly : (circles.doc.root.subnodes.filter fun n => (n.has "allOf").toOption == some true) =
        [treeNode] := rfl
    have hmem := (htree.mem_subnodes_of_get hn hhas hvalue).1
    obtain rfl : n = treeNode := by
      rw [← List.mem_singleton, ← honly, List.mem_filter, hhas]
      exact ⟨hmem, rfl⟩
    cases hvalue
    cases hmembers
    exact ⟨rfl, List.mem_singleton.mp hm⟩
  have hrefers {n : Node} (h : circles.doc.Refers treeMember n) : n = treeNode := by
    obtain ⟨value, ref, -, hvalue, href, hresolve⟩ := h
    cases hvalue
    cases href
    exact (Except.ok.inj hresolve).symm
  have hend (n : Node) : ¬ circles.doc.Refers treeNode n := by
    rintro ⟨_, _, hhas, -⟩
    cases hhas
  have hreach {m : Node} (h : Relation.ReflTransGen circles.doc.Refers treeMember m) :
      m = treeMember ∨ m = treeNode := by
    induction h with
    | refl => exact .inl rfl
    | tail _ hlast ih =>
      rcases ih with rfl | rfl
      · exact .inr (hrefers hlast)
      · exact absurd hlast (hend _)
  constructor
  · intro n member m hn hm hreferences hcircle
    obtain ⟨-, rfl⟩ := hmember hn hm
    obtain ⟨k, hk, hlast⟩ := Relation.TransGen.tail'_iff.mp hcircle
    rcases hreach (hreferences.trans hk) with rfl | rfl
    · obtain rfl := hrefers hlast
      obtain ⟨c, hfirst, -⟩ := Relation.TransGen.head'_iff.mp hcircle
      exact hend c hfirst
    · exact hend m hlast
  · intro n hn hcircle
    obtain ⟨c, ⟨⟨member, hm, hreferences, href, -⟩, hne⟩, -⟩ :=
      Relation.TransGen.head'_iff.mp hcircle
    obtain ⟨rfl, rfl⟩ := hmember hn hm
    rcases hreach hreferences with rfl | rfl
    · cases href
    · exact hne rfl

/-- The resolution of the record goes through all of these schemas. -/
theorem resolve_ends_circles :
    circles.doc.AllOfAcyclic ∧ circles.doc.Part treeNode ∧
      (circles.resolve treeNode "" .blank).1 ≠ .error .endless ∧
      ∀ fuel, circles.stepBound ≤ fuel →
        circles.resolveWithin fuel treeNode "" .blank = circles.resolve treeNode "" .blank := by
  have hresolve : circles.doc.resolve "#/components/schemas/Tree" = .ok treeNode := rfl
  have hpart := circles.doc.part_hereditary.resolve hresolve
  exact ⟨circles_allOfAcyclic, hpart,
    Resolver.resolve_ends rfl circles_allOfAcyclic hpart "" .blank⟩

end ServiceContract
