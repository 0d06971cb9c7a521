import ServiceContract.Proofs.Contract.Run
import ServiceContract.Proofs.Document.Entry
import ServiceContract.Proofs.Document.WellFormed
import ServiceContract.Proofs.Naming.Camel
import ServiceContract.Proofs.Schema.Record

/-!
# The names of fields

A record has one field for each property of its schema, in their order, and the names of the
properties are different from each other, also where several members of an `allOf` have a property
of one name. The name of a field is the camel-case form of the name of its property, taken for each
property by itself: nothing tells it apart from the other fields of the record. So the fields have
different names exactly if no two properties with letters or digits in their names have the same
camel-case form.

## Main results

* `Resolver.nodup_keys_of_shapeOf`: the names of the properties of a schema are different.
* `Field.nodup_map_name_iff`: when the fields for properties have different names.
* `Contract.fieldNames_of_build`: the fields of the records of a contract.
-/

namespace ServiceContract

open Naming

/-! ### The names of properties -/

/-- Merging keeps each property once. -/
theorem Shape.nodup_keys_merge {a : Shape} (ha : (a.properties.map Prod.fst).Nodup) (b : Shape) :
    ((a.merge b).properties.map Prod.fst).Nodup := by
  have hfold (es fs : List (Scalar × Node)) (h : (es.map Prod.fst).Nodup) :
      ((fs.foldl (fun es e => insertEntry e.1 e.2 es) es).map Prod.fst).Nodup := by
    induction fs generalizing es with
    | nil => exact h
    | cons f fs ih => exact ih _ (nodup_keys_insertEntry h)
  exact hfold a.properties b.properties ha

namespace Document

variable {doc : Document} {schema : Node} {label : String} {shape : Shape}

theorem nodup_keys_of_mergeMembers {flatten : Node → Except Fault Shape}
    {members : List Node} {a : Shape} (ha : (a.properties.map Prod.fst).Nodup)
    (h : doc.mergeMembers flatten label schema a members = .ok shape) :
    (shape.properties.map Prod.fst).Nodup := by
  induction members generalizing a with
  | nil =>
    cases h
    exact ha
  | cons member members ih =>
    obtain ⟨part, -, h⟩ := except_bind_eq_ok.mp h
    exact ih (Shape.nodup_keys_merge ha part) h

theorem nodup_keys_of_flattenWithin {fuel : Nat}
    (h : doc.flattenWithin label fuel schema = .ok shape) :
    (shape.properties.map Prod.fst).Nodup := by
  cases fuel with
  | zero => cases h
  | succ fuel =>
    obtain ⟨value, -, h⟩ := except_bind_eq_ok.mp h
    obtain ⟨members, -, h⟩ := except_bind_eq_ok.mp h
    exact nodup_keys_of_mergeMembers (a := .empty) List.nodup_nil h

/-- The names of the properties of an object are the keys of a map. -/
theorem WellFormed.nodup_keys_of_ofObject (hdoc : doc.WellFormed) (hpart : doc.Part schema)
    (h : Shape.ofObject schema = .ok shape) : (shape.properties.map Prod.fst).Nodup := by
  obtain ⟨required, -, h⟩ := except_bind_eq_ok.mp h
  obtain ⟨names, -, h⟩ := except_bind_eq_ok.mp h
  obtain ⟨properties, hproperties, h⟩ := except_bind_eq_ok.mp h
  obtain ⟨es, hes, h⟩ := except_bind_eq_ok.mp h
  cases h
  have hpart := doc.part_hereditary.get hpart hproperties
  rw [Node.entriesIfAny] at hes
  split_ifs at hes
  · cases properties with
    | map a entries =>
      cases hes
      rw [List.map_map]
      exact hdoc.keys hpart
    | _ => cases hes
  · cases hes
    exact List.nodup_nil

end Document

/-- The names of the properties of a schema are different from each other. -/
theorem Resolver.nodup_keys_of_shapeOf {r : Resolver} {schema : Node} {name : String}
    {shape : Shape} (hdoc : r.doc.WellFormed) (hpart : r.doc.Part schema)
    (h : r.shapeOf schema name = .ok shape) :
    (shape.properties.map Prod.fst).Nodup := by
  obtain ⟨hasMembers, -, h⟩ := except_bind_eq_ok.mp h
  split_ifs at h
  · exact Document.nodup_keys_of_flattenWithin h
  · exact hdoc.nodup_keys_of_ofObject hpart h

/-! ### The names of fields -/

namespace Field

variable {required : List Scalar} {properties : List (Scalar × Node)} {fields : List Field}

theorem map_key_of_isFor (h : List.Forall₂ (IsFor required) properties fields) :
    properties.map Prod.fst = fields.map fun f => .text f.wireName := by
  induction h with
  | nil => rfl
  | cons he _ ih => rw [List.map_cons, List.map_cons, he.key, ih]

theorem name_of_isFor (h : List.Forall₂ (IsFor required) properties fields) :
    ∀ f ∈ fields, f.name = Build.nonEmpty (camel f.wireName) f.wireName := by
  induction h with
  | nil => exact fun f hf => absurd hf List.not_mem_nil
  | cons he _ ih => exact List.forall_mem_cons.mpr ⟨he.name, ih⟩

/-- Fields for properties with different names have different names exactly if no two properties
that have letters or digits in their names have the same camel-case form. -/
theorem nodup_map_name_iff (h : List.Forall₂ (IsFor required) properties fields)
    (hwire : (fields.map wireName).Nodup) : (fields.map name).Nodup ↔
      fields.Pairwise fun f g => HasWord f.wireName → camel f.wireName ≠ camel g.wireName := by
  rw [List.Nodup, List.pairwise_map] at hwire
  rw [List.map_congr_left (name_of_isFor h), List.Nodup, List.pairwise_map]
  constructor
  · exact List.Pairwise.imp fun hne hword heq => hne (nonEmpty_camel_eq_iff.mpr (.inr ⟨hword, heq⟩))
  · intro hcamel
    refine (hwire.and hcamel).imp fun ⟨hne, hcamel⟩ heq => ?_
    rcases nonEmpty_camel_eq_iff.mp heq with hsame | ⟨hword, hsame⟩
    · exact hne hsame
    · exact hcamel hword hsame

end Field

namespace Contract

/-- Every record of a contract has one field for each property of the schema that it is declared
for, in their order, and their wire names are different from each other. The names of the fields are
made of the wire names one by one, and are different exactly if no two wire names that have letters
or digits have the same camel-case form. -/
theorem fieldNames_of_build {doc : Document} {options : Options} {c : Contract}
    (hdoc : doc.WellFormed) (h : build doc options = .ok c) :
    ∃ start paths s, Session.start doc = .ok start ∧ documentPaths doc = .ok paths ∧
      buildPaths (resolver doc options) options.includeResponse paths start = (.ok (), s) ∧
      c.declarations = s.declarations ∧
      ∀ {name fields description}, .record name fields description ∈ c.declarations →
        ∃ o schema shape, (resolver doc options).Named s o name ∧
          (resolver doc options).Behind o schema ∧
          doc.Part schema ∧ (resolver doc options).shapeOf schema name = .ok shape ∧
          shape.properties.map Prod.fst = fields.map (fun f => .text f.wireName) ∧
          (∀ f ∈ fields, f.name = Build.nonEmpty (camel f.wireName) f.wireName) ∧
          (fields.map Field.wireName).Nodup ∧
          ((fields.map Field.name).Nodup ↔
            fields.Pairwise fun f g => HasWord f.wireName →
            camel f.wireName ≠ camel g.wireName) := by
  obtain ⟨_, _, _, start, paths, s, -, -, -, hstart, hpaths, hrun, rfl⟩ := build_eq_ok_iff.mp h
  have hparts (e : Scalar × Node) (he : e ∈ paths) : doc.Part e.2 := by
    obtain ⟨value, hvalue, hentries⟩ := except_bind_eq_ok.mp hpaths
    exact doc.part_hereditary.entriesIfAny (doc.part_hereditary.get .root hvalue) hentries he
  have hmoves :=
    Resolver.buildPaths_accounted (r := resolver doc options) options.includeResponse hparts start
  rw [hrun] at hmoves
  have haccounted : (resolver doc options).Accounted s := hmoves.2 (Resolver.start_accounted hstart)
  refine ⟨start, paths, s, hstart, hpaths, hrun, rfl, fun {name fields description} hd => ?_⟩
  obtain ⟨o, schema, hnamed, hbehind, hpart, hshows⟩ := haccounted _ hd
  cases hshows with
  | record hblueprint hfields =>
    obtain ⟨shape, hshape, -, rfl⟩ := Resolver.shapeOf_of_blueprint hblueprint
    have hkeys := Field.map_key_of_isFor hfields
    have hwire : (fields.map Field.wireName).Nodup := by
      have hnodup := Resolver.nodup_keys_of_shapeOf (r := resolver doc options) hdoc hpart hshape
      rw [hkeys] at hnodup
      exact List.Nodup.of_map Scalar.text (by rwa [List.map_map])
    exact ⟨o, schema, shape, hnamed, hbehind, hpart, hshape, hkeys,
      Field.name_of_isFor hfields, hwire, Field.nodup_map_name_iff hfields hwire⟩

/-- A document with an operation whose result is a record with two properties. -/
def withProperties (first second : String) : Document :=
  .ofValue (.map [(.text "paths", .map [(.text "/page", .map [(.text "get", .map [
    (.text "operationId", .text "getPage"),
    (.text "responses", .map [(.text "200", .map [(.text "content", .map [
      (.text "application/json", .map [(.text "schema", .map [(.text "properties", .map [
        (.text first, .map []), (.text second, .map [])])])])])])])])])])])

/-- A field for a property that says nothing. -/
def fieldNamed (name wireName : String) : Field :=
  { name, wireName, type := .primitive "Any", required := false, description := "" }

/-- Two properties whose names differ in what separates their words give one name, others give
two. -/
theorem fieldNames_of_build_pages :
    (∃ c fields, build (withProperties "page_size" "page-no") .standard = .ok c ∧
      .record "GetPageResponse" fields "" ∈ c.declarations ∧ (fields.map Field.name).Nodup) ∧
    ∃ c fields, build (withProperties "page_size" "page-size") .standard = .ok c ∧
      .record "GetPageResponse" fields "" ∈ c.declarations ∧ ¬ (fields.map Field.name).Nodup := by
  constructor
  · obtain ⟨c, hc, hd⟩ : ∃ c, build (withProperties "page_size" "page-no") .standard = .ok c ∧
        .record "GetPageResponse"
        [fieldNamed "pageSize" "page_size", fieldNamed "pageNo" "page-no"] "" ∈
          c.declarations := ⟨_, rfl, List.mem_cons_self⟩
    obtain ⟨_, _, _, -, -, -, -, hrecords⟩ :=
      fieldNames_of_build (Document.wellFormed_ofValue (by decide)) hc
    obtain ⟨_, _, _, -, -, -, -, -, -, -, hnodup⟩ := hrecords hd
    exact ⟨c, _, hc, hd, hnodup.mpr (by decide)⟩
  · obtain ⟨c, hc, hd⟩ : ∃ c, build (withProperties "page_size" "page-size") .standard = .ok c ∧
        .record "GetPageResponse"
        [fieldNamed "pageSize" "page_size", fieldNamed "pageSize" "page-size"] "" ∈
          c.declarations := ⟨_, rfl, List.mem_cons_self⟩
    obtain ⟨_, _, _, -, -, -, -, hrecords⟩ :=
      fieldNames_of_build (Document.wellFormed_ofValue (by decide)) hc
    obtain ⟨_, _, _, -, -, -, -, -, -, -, hnodup⟩ := hrecords hd
    exact ⟨c, _, hc, hd, fun hdistinct => absurd (hnodup.mp hdistinct) (by decide)⟩

/-- The fields of a record do not always have different names. -/
theorem not_nodup_fieldNames_pages : ¬ ∀ doc options c, doc.WellFormed → build doc options = .ok c →
    ∀ name fields description, .record name fields description ∈ c.declarations →
      (fields.map Field.name).Nodup := by
  intro hall
  have hnodup := hall (withProperties "page_size" "page-size") .standard _
    (Document.wellFormed_ofValue (by decide)) rfl "GetPageResponse"
    [fieldNamed "pageSize" "page_size", fieldNamed "pageSize" "page-size"] "" List.mem_cons_self
  exact absurd hnodup (by decide)

end Contract

end ServiceContract
