import ServiceContract.Proofs.Contract.Visit
import ServiceContract.Proofs.Schema.Form
import ServiceContract.Proofs.Schema.Lineage
import ServiceContract.Proofs.Schema.Termination

/-!
# Records for composed schemas

The record for a schema with an `allOf` has a field for each property of the schemas that it is
composed of. The fields come in the order in which their names occur first, with the schemas with
which they occur last, and a field is required if one of all these schemas requires it. If one of
them is no object, the schema is unsupported, and nothing is resolved or declared.

## Main definitions

* `Node.propertyList`, `Node.requiredTexts`: what a schema says about properties.
* `Node.IsObjectSchema`: schemas that say it in the right form.
* `Node.Gathers`: the properties of several schemas.
* `Resolver.Resolves`, `Node.FieldOf`: the types of properties and the fields for them.

## Main results

* `Shape.mergeAll_of_objects`, `Shape.mergeAll_of_other`: merging the shapes of schemas.
* `Resolver.declareType_composed`: the record for a composed schema.
-/

namespace ServiceContract

namespace Node

/-! ### Properties -/

/-- The properties of a schema, by their names. -/
def propertyList (n : Node) : List (String × Node) :=
  match n.get "properties" with
  | .ok (.map _ es) => es.filterMap fun e =>
    match e.1 with
    | .text key => some (key, e.2.opened)
    | _ => none
  | _ => []

/-- The names of the properties that a schema requires. -/
def requiredTexts (n : Node) : List String :=
  match n.get "required" with
  | .ok (.list _ items) => items.filterMap fun item => item.opened.asText.toOption
  | _ => []

/-- The text that describes a schema. -/
def description (n : Node) : Except Fault String := do
  (← n.get "description").trimmedText

/-- Unless they are absent, the properties of the schema are a map with texts as keys and its
required names are a list of texts. If its type is none at all, it is unsupported. -/
structure IsObjectSchema (n : Node) : Prop where
  properties : ∃ value, n.get "properties" = .ok value ∧
    (value.isTruthy = true → ∃ a es, value = .map a (textual es))
  required : ∃ value, n.get "required" = .ok value ∧
    (value.isTruthy = true → ∃ a items, value = .list a items ∧ ∀ item ∈ items, ∃ text,
      item.opened.asText = .ok text)
  type : ∀ label, FailsWith (fun fault => ∃ reason, fault = .unsupported label reason)
    (n.isObjectLike label)

/-- The properties of several schemas: each name once, in the order of the first occurrences, with
the schema of the last one. -/
structure Gathers (l : List Node) (properties : List (String × Node)) : Prop where
  names : properties.map Prod.fst = ((l.flatMap propertyList).map Prod.fst).eraseDups
  last : ∀ e ∈ properties, ∃ before after, l.flatMap propertyList = before ++ e :: after ∧
    e.1 ∉ after.map Prod.fst

/-- The field for a property of the schemas, given the type of the property. -/
structure FieldOf (l : List Node) (property : (String × Node) × TypeExpr) (f : Field) : Prop where
  wireName : f.wireName = property.1.1
  name : f.name = Build.nonEmpty (Naming.camel property.1.1) property.1.1
  type : f.type = property.2
  required : f.required = true ↔ ∃ n ∈ l, property.1.1 ∈ n.requiredTexts
  description : property.1.2.orEmpty.description = .ok f.description

variable {n : Node} {l : List Node}

theorem gathers_assignAll (l : List Node) : Gathers l (assignAll [] (l.flatMap propertyList)) where
  names := map_fst_assignAll _
  last _ he := last_of_mem_assignAll he

end Node

/-! ### Shapes -/

namespace Resolver

theorem requiredNames_append {ns ms : List Node} {ss ts : List Scalar}
    (hns : requiredNames ns = .ok ss) (hms : requiredNames ms = .ok ts) :
    requiredNames (ns ++ ms) = .ok (ss ++ ts) := by
  induction ns generalizing ss with
  | nil =>
    cases hns
    exact hms
  | cons n ns ih =>
    obtain ⟨s, hs, hns⟩ := except_bind_eq_ok.mp hns
    obtain ⟨ss, hss, hns⟩ := except_bind_eq_ok.mp hns
    cases hns
    rw [List.cons_append, requiredNames, hs, except_ok_bind, ih hss]
    rfl

/-- Required names that are texts. -/
theorem requiredNames_of_texts {items : List Node}
    (h : ∀ item ∈ items, ∃ text, item.opened.asText = .ok text) :
    requiredNames (items.map Node.opened) =
      .ok ((items.filterMap fun item => item.opened.asText.toOption).map .text) := by
  induction items with
  | nil => rfl
  | cons item items ih =>
    obtain ⟨⟨text, hitem⟩, hitems⟩ := List.forall_mem_cons.mp h
    have hscalar : item.opened.asScalar = .ok (.text text) := by
      unfold Node.asText at hitem
      split at hitem
      · cases hitem
        simp_all [Node.asScalar]
      · cases hitem
    rw [List.map_cons, requiredNames, hscalar, except_ok_bind, ih hitems,
      List.filterMap_cons, hitem]
    rfl

end Resolver

open Resolver

/-- The shape of an object schema by itself. -/
theorem Node.IsObjectSchema.ofMember {n : Node} (h : n.IsObjectSchema) : ∃ names,
    Shape.ofMember n = .ok { properties := textual n.propertyList, required := names } ∧
      requiredNames names = .ok (n.requiredTexts.map .text) := by
  obtain ⟨properties, hproperties, hmap⟩ := h.properties
  obtain ⟨required, hrequired, hlist⟩ := h.required
  have hentries : Shape.propertyEntries properties = .ok (textual n.propertyList) := by
    rw [Node.propertyList, hproperties]
    by_cases htruthy : properties.isTruthy = true
    · obtain ⟨a, es, rfl⟩ := hmap htruthy
      rw [Shape.propertyEntries, htruthy, Bool.not_true, if_neg Bool.false_ne_true]
      simp [Node.entries, textual, Function.comp_def, List.filterMap_map]
    · rw [Bool.not_eq_true] at htruthy
      have hnone : Shape.propertyEntries properties = .ok [] := by
        simp only [Shape.propertyEntries, htruthy, Bool.not_false, if_true]
      rw [hnone]
      cases properties with
      | map a es =>
        obtain rfl : es = [] := by simpa [Node.isTruthy] using htruthy
        rfl
      | _ => rfl
  obtain ⟨names, hnames, htexts⟩ : ∃ names, required.itemsIfAny = .ok names ∧
      requiredNames names = .ok (n.requiredTexts.map .text) := by
    rw [Node.requiredTexts, hrequired]
    by_cases htruthy : required.isTruthy = true
    · obtain ⟨a, items, rfl, htexts⟩ := hlist htruthy
      exact ⟨items.map Node.opened,
        by rw [Node.itemsIfAny, if_pos htruthy]; rfl, requiredNames_of_texts htexts⟩
    · refine ⟨[], by rw [Node.itemsIfAny, if_neg htruthy], ?_⟩
      rw [Bool.not_eq_true] at htruthy
      cases required with
      | list a items =>
        obtain rfl : items = [] := by simpa [Node.isTruthy] using htruthy
        rfl
      | _ => rfl
  refine ⟨names, ?_, htexts⟩
  rw [Shape.ofMember, hproperties, except_ok_bind, hentries, except_ok_bind, hrequired,
    except_ok_bind, hnames]
  rfl

theorem Node.IsObjectSchema.hasTextKeys {n : Node} (h : n.IsObjectSchema) : n.HasTextKeys := by
  intro shape hshape
  obtain ⟨names, hmember, -⟩ := h.ofMember
  cases hmember.symm.trans hshape
  exact ⟨_, rfl⟩

namespace Shape

variable {l : List Node} {label : String}

/-- The shapes of objects merged one after the other: the properties are assigned in order. -/
theorem mergeAll_of_objects (hl : ∀ n ∈ l, n.IsObjectSchema)
    (hobjects : ∀ n ∈ l, n.isObjectLike label = .ok true) (es : List (String × Node))
    (names : List Node) :
    ∃ more, mergeAll label { properties := textual es, required := names } l = .ok
      { properties := textual (assignAll es (l.flatMap Node.propertyList)),
        required := names ++ more } ∧
    requiredNames more = .ok ((l.flatMap Node.requiredTexts).map .text) := by
  induction l generalizing es names with
  | nil => exact ⟨[], by rw [List.append_nil]; rfl, rfl⟩
  | cons n l ih =>
    obtain ⟨hn, hl⟩ := List.forall_mem_cons.mp hl
    obtain ⟨hobject, hobjects⟩ := List.forall_mem_cons.mp hobjects
    obtain ⟨own, hmember, hown⟩ := hn.ofMember
    obtain ⟨more, hmore, htexts⟩ := ih hl hobjects (assignAll es n.propertyList) (names ++ own)
    refine ⟨own ++ more, ?_, ?_⟩
    · rw [mergeAll, hobject, except_ok_bind, if_pos rfl, hmember, except_ok_bind, merge,
        foldl_insertEntry_textual]
      rw [hmore, List.flatMap_cons, assignAll_append, List.append_assoc]
    · rw [List.flatMap_cons, List.map_append]
      exact requiredNames_append hown htexts

/-- If one of the schemas is no object, their shapes cannot be merged. -/
theorem mergeAll_of_other (hl : ∀ n ∈ l, n.IsObjectSchema)
    (hother : ∃ n ∈ l, n.isObjectLike label ≠ .ok true) (a : Shape) :
    ∃ reason, mergeAll label a l = .error (.unsupported label reason) := by
  induction l generalizing a with
  | nil =>
    obtain ⟨_, hn, -⟩ := hother
    cases hn
  | cons n l ih =>
    obtain ⟨hn, hl⟩ := List.forall_mem_cons.mp hl
    cases hobject : n.isObjectLike label with
    | error fault =>
      obtain ⟨reason, rfl⟩ := hn.type label hobject
      exact ⟨reason, by rw [mergeAll, hobject]; rfl⟩
    | ok isObject =>
      rw [mergeAll, hobject, except_ok_bind]
      cases isObject with
      | false => exact ⟨_, rfl⟩
      | true =>
        obtain ⟨names, hmember, -⟩ := hn.ofMember
        obtain ⟨m, hm, hother⟩ := hother
        rw [if_pos rfl, hmember, except_ok_bind]
        refine ih hl ⟨m, (List.mem_cons.mp hm).resolve_left ?_, hother⟩ _
        rintro rfl
        exact hother hobject

end Shape

/-! ### Fields -/

namespace Resolver

variable {r : Resolver} {resolve : Node → String → Build TypeExpr} {owner : String} {l : List Node}
  {required : List Scalar}

/-- The properties are resolved one after the other, each in the session that the ones before it
leave. A property that is absent counts as the empty schema. -/
inductive Resolves (resolve : Node → String → Build TypeExpr) (owner : String) :
    List (String × Node) → Session → List TypeExpr → Session → Prop
  | nil (s : Session) : Resolves resolve owner [] s [] s
  | cons {e : String × Node} {es : List (String × Node)} {s t u : Session} {type : TypeExpr}
    {types : List TypeExpr}
    (htype : resolve e.2.orEmpty (owner ++ Naming.pascal e.1) s = (.ok type, t))
    (hrest : Resolves resolve owner es t types u) :
    Resolves resolve owner (e :: es) s (type :: types) u

/-- The field that is made for a property. -/
theorem fieldOf_iff {e : String × Node} {type : TypeExpr} {f : Field} :
    Node.FieldOf l (e, type) f ↔ ∃ description, e.2.orEmpty.description = .ok description ∧
      f = { name := Build.nonEmpty (Naming.camel e.1) e.1, wireName := e.1, type
            required := ((l.flatMap Node.requiredTexts).map Scalar.text).contains (.text e.1),
              description } := by
  have hrequired : ((l.flatMap Node.requiredTexts).map Scalar.text).contains (.text e.1) = true ↔
      ∃ n ∈ l, e.1 ∈ n.requiredTexts := by
    simp [List.mem_flatMap]
  constructor
  · rintro ⟨hwire, hname, htype, hsame, hdescription⟩
    refine ⟨f.description, hdescription, ?_⟩
    rw [← hrequired, ← Bool.eq_iff_iff] at hsame
    cases f
    cases hwire
    cases hname
    cases htype
    cases hsame
    rfl
  · rintro ⟨description, hdescription, rfl⟩
    exact ⟨rfl, rfl, rfl, hrequired, hdescription⟩

/-- If properties are resolved and each of them is described by a text, there is a field for each of
them. -/
theorem Resolves.exists_fields {es : List (String × Node)} {types : List TypeExpr} {s t : Session}
    (h : Resolves resolve owner es s types t)
    (htexts : ∀ e ∈ es, ∃ text, e.2.orEmpty.description = .ok text) :
    ∃ fields, List.Forall₂ (Node.FieldOf l) (es.zip types) fields := by
  induction h with
  | nil => exact ⟨[], .nil⟩
  | @cons e es _ _ _ type types _ _ ih =>
    obtain ⟨⟨text, htext⟩, htexts⟩ := List.forall_mem_cons.mp htexts
    obtain ⟨fields, hfields⟩ := ih htexts
    exact ⟨_, .cons (fieldOf_iff.mpr ⟨text, htext, rfl⟩) hfields⟩

/-- The fields for properties are made when the properties are resolved. -/
theorem resolveFields_eq_ok {es : List (String × Node)} {fields : List Field} {s t : Session} :
    resolveFields resolve owner ((l.flatMap Node.requiredTexts).map .text) (textual es) s =
      (.ok fields, t) ↔
      ∃ types, Resolves resolve owner es s types t ∧
        List.Forall₂ (Node.FieldOf l) (es.zip types) fields := by
  induction es generalizing s fields with
  | nil =>
    constructor
    · intro h
      obtain ⟨rfl, rfl⟩ := Build.pure_eq_ok.mp h
      exact ⟨[], .nil _, .nil⟩
    · rintro ⟨types, hresolves, hfields⟩
      cases hresolves
      cases hfields
      rfl
  | cons e es ih =>
    constructor
    · intro h
      obtain ⟨wireName, hkey, h⟩ := Build.lift_bind_eq_ok.mp h
      cases hkey
      obtain ⟨type, u, htype, h⟩ := Build.bind_eq_ok.mp h
      obtain ⟨value, hvalue, h⟩ := Build.lift_bind_eq_ok.mp h
      obtain ⟨description, htext, h⟩ := Build.lift_bind_eq_ok.mp h
      obtain ⟨fields, v, hfields, h⟩ := Build.bind_eq_ok.mp h
      obtain ⟨rfl, rfl⟩ := Build.pure_eq_ok.mp h
      obtain ⟨types, hresolves, hforall⟩ := ih.mp hfields
      refine ⟨type :: types, .cons htype hresolves,
        .cons (fieldOf_iff.mpr ⟨description, ?_, rfl⟩) hforall⟩
      exact except_bind_eq_ok.mpr ⟨value, hvalue, htext⟩
    · rintro ⟨types, hresolves, hforall⟩
      cases hresolves with
      | @cons _ _ _ u _ type types htype hrest =>
        cases hforall with
        | cons hfield hforall =>
          obtain ⟨description, hdescription, rfl⟩ := fieldOf_iff.mp hfield
          obtain ⟨value, hvalue, htext⟩ := except_bind_eq_ok.mp hdescription
          refine Build.lift_bind_eq_ok.mpr ⟨e.1, rfl, Build.bind_eq_ok.mpr ⟨type, u, htype, ?_⟩⟩
          refine Build.lift_bind_eq_ok.mpr ⟨value, hvalue, Build.lift_bind_eq_ok.mpr ⟨_, htext, ?_⟩⟩
          exact Build.bind_eq_ok.mpr ⟨_, t, ih.mpr ⟨types, hrest, hforall⟩, rfl⟩

/-! ### Declarations -/

variable (r) in
/-- The schema is declared: a reference leads to it, or it is declared where it stands. -/
def Declares (schema : Node) : Prop :=
  (∃ ref, r.target ref = .ok (schema, true)) ∨ ∃ label, r.form schema label = .ok .inline

variable {schema : Node} {name description : String}

/-- A schema that is declared is no reference. -/
theorem Declares.ref (h : r.Declares schema) : schema.has "$ref" = .ok false := by
  rcases h with ⟨ref, h⟩ | ⟨label, h⟩
  · obtain ⟨isReference, href, h⟩ := except_bind_eq_ok.mp (declaresType_of_target h)
    cases isReference with
    | false => exact href
    | true => cases h
  · cases formReason h with
    | inline href => exact href

variable (r) in
/-- The schema is declared as the record of the given schemas: its fields are for their properties,
and it is declared as soon as these are resolved and described by texts. -/
def DeclaresRecord (resolve : Node → String → Build TypeExpr) (schema : Node)
    (name description : String) (l : List Node) (s : Session) : Prop :=
  ∃ properties, Node.Gathers l properties ∧
    (∀ {types t}, Resolves resolve name properties s types t →
      (∀ e ∈ properties, ∃ text, e.2.orEmpty.description = .ok text) →
      ∃ fields, List.Forall₂ (Node.FieldOf l) (properties.zip types) fields ∧
        r.declareType resolve schema name s = Build.declare (.record name fields description) t) ∧
    ∀ {u}, r.declareType resolve schema name s = (.ok (), u) →
      ∃ types t fields, Resolves resolve name properties s types t ∧
        List.Forall₂ (Node.FieldOf l) (properties.zip types) fields ∧
        Build.declare (.record name fields description) t = (.ok (), u)

theorem blueprint_of_description (hall : schema.has "allOf" = .ok true)
    (henum : schema.has "enum" = .ok false) (hdescription : schema.description = .ok description) :
    r.blueprint schema name = r.doc.flatten schema name >>= fun shape =>
      requiredNames shape.required >>= fun required =>
        .ok (.record required shape.properties description) := by
  obtain ⟨value, hvalue, htext⟩ := except_bind_eq_ok.mp hdescription
  rw [blueprint, hvalue, except_ok_bind, htext, except_ok_bind, henum, except_ok_bind,
    if_neg Bool.false_ne_true, shapeOf, hall, except_ok_bind, if_pos rfl]
  rfl

theorem declaresRecord (hblueprint : r.blueprint schema name =
      .ok (.record ((l.flatMap Node.requiredTexts).map .text)
        (textual (assignAll [] (l.flatMap Node.propertyList))) description)) (s : Session) :
    r.DeclaresRecord resolve schema name description l s := by
  refine ⟨_, Node.gathers_assignAll l, fun {types t} hresolves htexts => ?_, fun {u} h => ?_⟩
  · obtain ⟨fields, hfields⟩ := hresolves.exists_fields (l := l) htexts
    refine ⟨fields, hfields, ?_⟩
    rw [declareType_eq, hblueprint]
    change (resolveFields _ _ _ _ >>= fun fields => Build.declare (.record name fields description))
      s = _
    rw [Build.bind_apply, resolveFields_eq_ok.mpr ⟨types, hresolves, hfields⟩]
  · rw [declareType_eq, hblueprint] at h
    obtain ⟨_, ⟨⟩, h⟩ := Build.lift_bind_eq_ok.mp h
    obtain ⟨fields, t, hfields, h⟩ := Build.bind_eq_ok.mp h
    obtain ⟨types, hresolves, hforall⟩ := resolveFields_eq_ok.mp hfields
    exact ⟨types, t, fields, hresolves, hforall, h⟩

/-- A schema with an `allOf` that is declared, and neither leads round to itself nor to anything but
objects, is composed of finitely many schemas. If all of these are objects, it is declared as their
record. If one of them is none, it is unsupported, and nothing is declared. -/
theorem declareType_composed (hwell : r.doc.WellFormed) (hcounted : r.doc.Counted)
    (hpart : r.doc.Part schema) (hdeclares : r.Declares schema)
    (hall : schema.has "allOf" = .ok true) (henum : schema.has "enum" = .ok false)
    (hc : r.doc.Composable schema) (hdescription : schema.description = .ok description) :
    (∃ l, r.doc.Lists schema l) ∧ ∀ {l}, r.doc.Lists schema l → (∀ n ∈ l, n.IsObjectSchema) →
      ∀ (resolve : Node → String → Build TypeExpr) (name : String) (s : Session),
        ((∀ n ∈ l, n.isObjectLike name = .ok true) →
          r.DeclaresRecord resolve schema name description l s) ∧
        ((∃ n ∈ l, n.isObjectLike name ≠ .ok true) →
          ∃ reason, r.declareType resolve schema name s =
            (.error (.unsupported name reason), s)) := by
  refine ⟨hc.exists_lists hcounted hpart hall, fun {l} hlists hl resolve name s => ?_⟩
  have hflatten : r.doc.flatten schema name = Shape.mergeAll name .empty l :=
    hc.flatten_eq hwell hcounted hpart hdeclares.ref hlists (fun n hn => (hl n hn).hasTextKeys) name
  refine ⟨fun hobjects => declaresRecord ?_ s, fun hother => ?_⟩
  · obtain ⟨names, hmerge, hnames⟩ := Shape.mergeAll_of_objects hl hobjects [] []
    rw [blueprint_of_description hall henum hdescription, hflatten]
    change (Shape.mergeAll name { properties := textual [], required := [] } l >>= _) = _
    rw [hmerge, except_ok_bind, List.nil_append, hnames]
    rfl
  · obtain ⟨reason, hmerge⟩ := Shape.mergeAll_of_other hl hother .empty
    refine ⟨reason, ?_⟩
    rw [declareType_eq, blueprint_of_description hall henum hdescription, hflatten, hmerge]
    rfl

end Resolver

/-! ### Composed schemas -/

namespace Composition

/-- An object schema whose properties have the given types, with required names. -/
def objectOf (properties : List (String × String)) (required : List String) : Value :=
  .map [
    (.text "properties",
      .map (properties.map fun e => (.text e.1, .map [(.text "type", .text e.2)]))),
    (.text "required", .list (required.map .text))]

/-- The schema of a record, and schemas that are composed of members. -/
def base : Value := objectOf [("id", "integer"), ("name", "string")] ["id"]
def tagged : Value := objectOf [("name", "string"), ("tag", "string")] ["tag"]
def named : Value :=
    .map [(.text "allOf", .list [.ofReference "#/components/schemas/Base", tagged])]
def sized : Value := objectOf [("size", "number")] ["name"]

/-- A record that is composed of a composed record and one more, and has a property of its own. -/
def full : Value :=
  .map [
    (.text "allOf", .list [.ofReference "#/components/schemas/Named", sized]),
    (.text "properties", .map [(.text "id", .map [(.text "type", .text "string")])]),
    (.text "description", .text " All of it ")]

/-- A choice, and a schema that is composed of the record and the choice. -/
def choice : Value := .map [(.text "enum", .list [.text "one"])]
def odd : Value := .map [(.text "allOf", .list [.ofReference "#/components/schemas/Base", choice])]

/-- The document of these schemas. -/
def resolver : Resolver where
  doc := .ofValue (.map [(.text "components", .map [(.text "schemas", .map [
    (.text "Base", base), (.text "Named", named), (.text "Full", full), (.text "Odd", odd)])])])
  primitives := pythonPrimitives

/-- The node of a component. -/
def component (name : String) (value : Value) : Node :=
  .ofValue [.key (.text name), .key (.text "schemas"), .key (.text "components")] value

/-- The node of a member of a component. -/
def member (name : String) (i : Nat) (value : Value) : Node :=
  .ofValue [.index i, .key (.text "allOf"), .key (.text name), .key (.text "schemas"),
    .key (.text "components")] value

theorem texts_of_all {items : List Node}
    (h : (items.all fun item => item.opened.asText.isOk) = true) :
    ∀ item ∈ items, ∃ text, item.opened.asText = .ok text := by
  intro item hitem
  have hok := List.all_eq_true.mp h item hitem
  cases htext : item.opened.asText with
  | error fault =>
    rw [htext] at hok
    cases hok
  | ok text => exact ⟨text, rfl⟩

theorem isObjectSchema_base : (component "Base" base).IsObjectSchema where
  properties := ⟨_, rfl, fun _ => ⟨_, [("id", _), ("name", _)], rfl⟩⟩
  required := ⟨_, rfl, fun _ => ⟨_, _, rfl, texts_of_all rfl⟩⟩
  type _ _ h := nomatch h

theorem isObjectSchema_tagged : (member "Named" 1 tagged).IsObjectSchema where
  properties := ⟨_, rfl, fun _ => ⟨_, [("name", _), ("tag", _)], rfl⟩⟩
  required := ⟨_, rfl, fun _ => ⟨_, _, rfl, texts_of_all rfl⟩⟩
  type _ _ h := nomatch h

theorem isObjectSchema_named : (component "Named" named).IsObjectSchema where
  properties := ⟨_, rfl, nofun⟩
  required := ⟨_, rfl, nofun⟩
  type _ _ h := nomatch h

theorem isObjectSchema_sized : (member "Full" 1 sized).IsObjectSchema where
  properties := ⟨_, rfl, fun _ => ⟨_, [("size", _)], rfl⟩⟩
  required := ⟨_, rfl, fun _ => ⟨_, _, rfl, texts_of_all rfl⟩⟩
  type _ _ h := nomatch h

theorem isObjectSchema_full : (component "Full" full).IsObjectSchema where
  properties := ⟨_, rfl, fun _ => ⟨_, [("id", _)], rfl⟩⟩
  required := ⟨_, rfl, nofun⟩
  type _ _ h := nomatch h

theorem isObjectSchema_choice : (member "Odd" 1 choice).IsObjectSchema where
  properties := ⟨_, rfl, nofun⟩
  required := ⟨_, rfl, nofun⟩
  type _ _ h := nomatch h

theorem isObjectSchema_odd : (component "Odd" odd).IsObjectSchema where
  properties := ⟨_, rfl, nofun⟩
  required := ⟨_, rfl, nofun⟩
  type _ _ h := nomatch h

/-- A schema with two members, a reference to a component and a schema without an `allOf`, is
composable if the component is. -/
theorem composable_of_pair {n first : Node} {a b : Address} {es fs : List (Scalar × Node)}
    (hmembers : n.Composes [first, .map b fs])
    (hrefers : resolver.doc.Refers first (.map a es))
    (href : (Node.map a es).has "$ref" = .ok false)
    (hcomponent : resolver.doc.Composable (.map a es))
    (hsecond : (Node.map b fs).has "$ref" = .ok false)
    (hall : (Node.map b fs).has "allOf" = .ok false) : resolver.doc.Composable n := by
  refine .composed hmembers fun m hm => ?_
  rcases List.mem_pair.mp hm with rfl | rfl
  · exact ⟨a, es, ⟨.single hrefers, href⟩, hcomponent⟩
  · exact ⟨b, fs, ⟨.refl, hsecond⟩, .plain hall⟩

theorem composable_named : resolver.doc.Composable (component "Named" named) :=
  composable_of_pair ⟨rfl, _, rfl, rfl⟩ ⟨_, _, rfl, rfl, rfl, rfl⟩ rfl (.plain rfl) rfl rfl

theorem composable_full : resolver.doc.Composable (component "Full" full) :=
  composable_of_pair ⟨rfl, _, rfl, rfl⟩ ⟨_, _, rfl, rfl, rfl, rfl⟩ rfl composable_named rfl rfl

theorem composable_odd : resolver.doc.Composable (component "Odd" odd) :=
  composable_of_pair ⟨rfl, _, rfl, rfl⟩ ⟨_, _, rfl, rfl, rfl, rfl⟩ rfl (.plain rfl) rfl rfl

theorem lists_full : resolver.doc.Lists (component "Full" full)
    [component "Base" base, member "Named" 1 tagged, component "Named" named, member "Full" 1 sized,
      component "Full" full] := by
  refine ⟨_, [component "Base" base, member "Named" 1 tagged] ++ component "Named" named ::
    [member "Full" 1 sized], ⟨rfl, _, rfl, rfl⟩, ?_, rfl⟩
  refine .composed ⟨.single ⟨_, _, rfl, rfl, rfl, rfl⟩, rfl⟩ ⟨rfl, _, rfl, rfl⟩ ?_
    (.plain ⟨.refl, rfl⟩ rfl .nil)
  exact .plain ⟨.single ⟨_, _, rfl, rfl, rfl, rfl⟩, rfl⟩ rfl (.plain ⟨.refl, rfl⟩ rfl .nil)

theorem lists_odd : resolver.doc.Lists (component "Odd" odd)
    [component "Base" base, member "Odd" 1 choice, component "Odd" odd] :=
  ⟨_, _, ⟨rfl, _, rfl, rfl⟩, .plain ⟨.single ⟨_, _, rfl, rfl, rfl, rfl⟩, rfl⟩ rfl
    (.plain ⟨.refl, rfl⟩ rfl .nil), rfl⟩

/-- The first schema is declared as the record of five schemas; the second one is unsupported,
because a choice is no object. -/
theorem declareType_composed_full :
    (∀ (resolve : Node → String → Build TypeExpr) (name : String) (s : Session),
      resolver.DeclaresRecord resolve (component "Full" full) name "All of it"
        [component "Base" base, member "Named" 1 tagged, component "Named" named,
          member "Full" 1 sized, component "Full" full] s) ∧
    ∀ (resolve : Node → String → Build TypeExpr) (name : String) (s : Session), ∃ reason,
      resolver.declareType resolve (component "Odd" odd) name s =
        (.error (.unsupported name reason), s) := by
  have hwell : resolver.doc.WellFormed := Document.wellFormed_ofValue (by decide)
  have hcounted : resolver.doc.Counted := (Document.isTree_ofValue _).counted
  have hfull : resolver.doc.resolve "#/components/schemas/Full" = .ok (component "Full" full) := rfl
  have hodd : resolver.doc.resolve "#/components/schemas/Odd" = .ok (component "Odd" odd) := rfl
  have hdeclares : resolver.Declares (component "Full" full) :=
    .inl ⟨"#/components/schemas/Full", rfl⟩
  have hdeclares' : resolver.Declares (component "Odd" odd) :=
    .inl ⟨"#/components/schemas/Odd", rfl⟩
  have hrecord :=
    (Resolver.declareType_composed hwell hcounted (resolver.doc.part_hereditary.resolve hfull)
      hdeclares rfl rfl composable_full rfl).2 lists_full
  have hother :=
    (Resolver.declareType_composed hwell hcounted (resolver.doc.part_hereditary.resolve hodd)
      hdeclares' rfl rfl composable_odd rfl).2 lists_odd
  refine ⟨fun resolve name s => (hrecord ?_ resolve name s).1 ?_, fun resolve name s =>
    (hother ?_ resolve name s).2 ⟨_, .tail _ (.head _), nofun⟩⟩
  · simp only [List.forall_mem_cons]
    exact ⟨isObjectSchema_base, isObjectSchema_tagged, isObjectSchema_named, isObjectSchema_sized,
      isObjectSchema_full, nofun⟩
  · simp only [List.forall_mem_cons]
    exact ⟨rfl, rfl, rfl, rfl, rfl, nofun⟩
  · simp only [List.forall_mem_cons]
    exact ⟨isObjectSchema_base, isObjectSchema_choice, isObjectSchema_odd, nofun⟩

/-- Descriptions that are no texts, and lists of types that are not to be written: a record whose
description is a number, and a schema that is composed of the record and of one that has a number of
too many digits for a type. -/
def described : Value :=
  .map [
    (.text "allOf", .list [objectOf [("a", "string")] [], objectOf [("b", "integer")] []]),
    (.text "description", .scalar (.int 5))]
def untyped : Value :=
  .map [(.text "type", .list [.scalar (.int (Int.ofNat (Nat.pow 10 maxDigits))), .text "string"])]
def doubtful : Value := .map [(.text "allOf", .list [objectOf [("a", "string")] [], untyped])]

/-- The document of these schemas. -/
def faulty : Resolver where
  doc := .ofValue (.map [(.text "components", .map [(.text "schemas", .map [
    (.text "Described", described), (.text "Doubtful", doubtful)])])])
  primitives := pythonPrimitives

/-- Whether a result is the fault of a value of the wrong kind. -/
def isMalformed {α : Type} : Except Fault α → Bool
  | .error .malformed => true
  | _ => false

theorem eq_of_isMalformed {α : Type} {x : Except Fault α} (h : isMalformed x = true) :
    x = .error .malformed := by
  unfold isMalformed at h
  split at h
  · rfl
  · cases h

/-- All properties of the first schema have types, and all that it is composed of are objects; the
second one is composed of a schema that is no object. Neither is declared, and neither is
unsupported. -/
theorem not_declared_described :
    (faulty.Declares (component "Described" described) ∧
      faulty.doc.Composable (component "Described" described) ∧
      (∃ l, faulty.doc.Lists (component "Described" described) l ∧ (∀ n ∈ l, n.IsObjectSchema) ∧
        (∀ n ∈ l, n.isObjectLike "Described" = .ok true) ∧
        ∃ properties types, Node.Gathers l properties ∧
          Resolver.Resolves faulty.resolve "Described" properties .blank types .blank) ∧
      faulty.declareType faulty.resolve (component "Described" described) "Described" .blank =
        (.error .malformed, .blank)) ∧
    faulty.Declares (component "Doubtful" doubtful) ∧
    faulty.doc.Composable (component "Doubtful" doubtful) ∧
      (∃ l, faulty.doc.Lists (component "Doubtful" doubtful) l ∧
        ∃ n ∈ l, n.isObjectLike "Doubtful" ≠ .ok true) ∧
      faulty.declareType faulty.resolve (component "Doubtful" doubtful) "Doubtful" .blank =
        (.error .malformed, .blank) := by
  have hdescribed : faulty.doc.Composable (component "Described" described) := by
    refine .composed ⟨rfl, _, rfl, rfl⟩ fun m hm => ?_
    rcases List.mem_pair.mp hm with rfl | rfl <;> exact ⟨_, _, ⟨.refl, rfl⟩, .plain rfl⟩
  have hdoubtful : faulty.doc.Composable (component "Doubtful" doubtful) := by
    refine .composed ⟨rfl, _, rfl, rfl⟩ fun m hm => ?_
    rcases List.mem_pair.mp hm with rfl | rfl <;> exact ⟨_, _, ⟨.refl, rfl⟩, .plain rfl⟩
  have hlists : faulty.doc.Lists (component "Described" described)
      [member "Described" 0 (objectOf [("a", "string")] []),
        member "Described" 1 (objectOf [("b", "integer")] []), component "Described" described] :=
    ⟨_, [member "Described" 0 (objectOf [("a", "string")] []),
      member "Described" 1 (objectOf [("b", "integer")] [])], ⟨rfl, _, rfl, rfl⟩,
      .plain ⟨.refl, rfl⟩ rfl (.plain ⟨.refl, rfl⟩ rfl .nil), rfl⟩
  have hlists' : faulty.doc.Lists (component "Doubtful" doubtful)
      [member "Doubtful" 0 (objectOf [("a", "string")] []), member "Doubtful" 1 untyped,
        component "Doubtful" doubtful] :=
    ⟨_, [member "Doubtful" 0 (objectOf [("a", "string")] []), member "Doubtful" 1 untyped],
      ⟨rfl, _, rfl, rfl⟩, .plain ⟨.refl, rfl⟩ rfl (.plain ⟨.refl, rfl⟩ rfl .nil), rfl⟩
  have huntyped : (member "Doubtful" 1 untyped).isObjectLike "Doubtful" = .error .malformed :=
    eq_of_isMalformed (by decide +kernel)
  have hblueprint : faulty.blueprint (component "Doubtful" doubtful) "Doubtful" =
      .error .malformed :=
    eq_of_isMalformed (by decide +kernel)
  refine ⟨⟨.inl ⟨"#/components/schemas/Described", rfl⟩, hdescribed, ⟨_, hlists, ?_, ?_, ?_⟩, rfl⟩,
    .inl ⟨"#/components/schemas/Doubtful", rfl⟩, hdoubtful,
    ⟨_, hlists', _, .tail _ (.head _), by rw [huntyped]; nofun⟩, ?_⟩
  · simp only [List.forall_mem_cons]
    refine ⟨⟨⟨_, rfl, fun _ => ⟨_, [("a", _)], rfl⟩⟩, ⟨_, rfl, nofun⟩, nofun⟩,
      ⟨⟨_, rfl, fun _ => ⟨_, [("b", _)], rfl⟩⟩, ⟨_, rfl, nofun⟩, nofun⟩,
      ⟨⟨_, rfl, nofun⟩, ⟨_, rfl, nofun⟩, nofun⟩, nofun⟩
  · simp only [List.forall_mem_cons]
    exact ⟨rfl, rfl, rfl, nofun⟩
  · exact ⟨_, [.primitive "str", .primitive "int"], Node.gathers_assignAll _,
      .cons rfl (.cons rfl (.nil _))⟩
  · rw [Resolver.declareType_eq, hblueprint]
    rfl

end Composition

end ServiceContract
