import ServiceContract.Proofs.Contract.Visit
import ServiceContract.Proofs.Naming.Camel
import ServiceContract.Proofs.Operation.ParameterName

/-!
# The names of methods

The method for an endpoint has the camel-case form of the identifier of its operation as its name.
The form is taken for each operation by itself: no name is told apart from those of other methods by
a number, as names of types and parameters are, and an identifier without letters and digits leaves
no name at all. So the names are different and not empty exactly if the forms of the identifiers
are.

## Main results

* `Endpoint.Makes.name`: the name of the method for an endpoint.
* `Contract.methodNames_of_build`: the names of the methods of a contract.
-/

namespace ServiceContract

open Naming

/-- The method for an endpoint is named after the identifier of the operation. -/
theorem Endpoint.Makes.name {r : Resolver} {includeResponse : Bool} {e : Endpoint} {m : Method}
    (h : e.Makes r includeResponse m) :
    ∃ id, operationName e.operation = .ok id ∧ m.name = camel id := by
  obtain ⟨s, t, h⟩ := h
  obtain ⟨id, _, _, _, _, _, _, _, _, _, hid, -, -, -, -, rfl⟩ := buildMethod_eq_ok h
  exact ⟨id, hid, rfl⟩

/-- The methods for endpoints are named after the identifiers of their operations. -/
theorem map_name_of_makes {r : Resolver} {includeResponse : Bool} {es : List Endpoint}
    {ms : List Method} (h : List.Forall₂ (Endpoint.Makes r includeResponse) es ms) :
    ∃ ids, List.Forall₂ (fun e id => operationName e.operation = .ok id) es ids ∧
      ms.map Method.name = ids.map camel := by
  induction h with
  | nil => exact ⟨[], .nil, rfl⟩
  | cons hm _ ih =>
    obtain ⟨id, hid, hname⟩ := hm.name
    obtain ⟨ids, hids, hnames⟩ := ih
    exact ⟨id :: ids, .cons hid hids, by rw [List.map_cons, List.map_cons, hname, hnames]⟩

namespace Contract

/-- The methods of a contract are named after the operations of the endpoints, in order. None of the
names is empty exactly if every identifier has a letter or a digit, and the names are different
exactly if the camel-case forms of the identifiers are. Identifiers that are in camel case are the
names. -/
theorem methodNames_of_build {doc : Document} {options : Options} {c : Contract}
    (h : build doc options = .ok c) : ∃ paths ids, documentPaths doc = .ok paths ∧
      List.Forall₂ (fun e id => operationName e.operation = .ok id) (endpoints paths) ids ∧
      c.methods.map Method.name = ids.map camel ∧
      ((∀ m ∈ c.methods, m.name ≠ "") ↔ ∀ id ∈ ids, HasWord id) ∧
      ((c.methods.map Method.name).Nodup ↔ ids.Pairwise fun id id' => camel id ≠ camel id') ∧
      ((∀ id ∈ ids, IsCamel id) → c.methods.map Method.name = ids) := by
  obtain ⟨paths, hpaths, hmakes⟩ := methods_of_build h
  obtain ⟨ids, hids, hnames⟩ := map_name_of_makes hmakes
  refine ⟨paths, ids, hpaths, hids, hnames, ?_, ?_, fun hcamel => ?_⟩
  · have hall : (∀ n ∈ c.methods.map Method.name, n ≠ "") ↔ ∀ m ∈ c.methods, m.name ≠ "" :=
      List.forall_mem_map
    rw [← hall, hnames, List.forall_mem_map]
    simp only [ne_eq, camel_eq_empty_iff, not_not]
  · rw [hnames, List.Nodup, List.pairwise_map]
  · rw [hnames]
    exact (List.map_congr_left fun id hid => (hcamel id hid).camel_eq).trans (List.map_id ids)

/-- A document with two operations that have the given identifiers. -/
def withOperations (first second : String) : Document :=
  .ofValue (.map [(.text "paths", .map [
    (.text "/a", .map [(.text "get", .map [(.text "operationId", .text first)])]),
    (.text "/b", .map [(.text "get", .map [(.text "operationId", .text second)])])])])

/-- Two identifiers that differ in what separates their words give one name, others give two. -/
theorem methodNames_of_build_pets :
    (∃ c, build (withOperations "get_pet" "list-pets") .standard = .ok c ∧
      (∀ m ∈ c.methods, m.name ≠ "") ∧ (c.methods.map Method.name).Nodup) ∧
    ∃ c, build (withOperations "get_pet" "get-pet") .standard = .ok c ∧
      ¬ (c.methods.map Method.name).Nodup := by
  have hids {first second : String} {paths : List (Scalar × Node)} {ids : List String}
      (hpaths : documentPaths (withOperations first second) = .ok paths)
      (h : List.Forall₂ (fun e id => operationName e.operation = .ok id) (endpoints paths) ids)
      {a b : String}
        (ha : operationName (.ofValue [] (.map [(.text "operationId", .text first)])) = .ok a)
      (hb : operationName (.ofValue [] (.map [(.text "operationId", .text second)])) = .ok b) :
      ids = [a, b] := by
    have hp : documentPaths (withOperations first second) = .ok _ := rfl
    cases hp.symm.trans hpaths
    exact List.right_unique_forall₂' (fun _ _ _ h h' => Except.ok.inj (h.symm.trans h')) h
      (.cons ha (.cons hb .nil))
  constructor
  · obtain ⟨c, hc⟩ : ∃ c, build (withOperations "get_pet" "list-pets") .standard = .ok c := ⟨_, rfl⟩
    obtain ⟨paths, ids, hpaths, h, -, hempty, hnodup, -⟩ := methodNames_of_build hc
    obtain rfl : ids = ["get_pet", "list-pets"] := hids hpaths h rfl rfl
    exact ⟨c, hc, hempty.mpr (by decide), hnodup.mpr (by decide)⟩
  · obtain ⟨c, hc⟩ : ∃ c, build (withOperations "get_pet" "get-pet") .standard = .ok c := ⟨_, rfl⟩
    obtain ⟨paths, ids, hpaths, h, -, -, hnodup, -⟩ := methodNames_of_build hc
    obtain rfl : ids = ["get_pet", "get-pet"] := hids hpaths h rfl rfl
    exact ⟨c, hc, fun hdistinct => absurd (hnodup.mp hdistinct) (by decide)⟩

/-- Different identifiers do not always give different names. -/
theorem not_nodup_methodNames_pets : ¬ ∀ doc options c paths ids, build doc options = .ok c →
    documentPaths doc = .ok paths →
    List.Forall₂ (fun e id => operationName e.operation = .ok id) (endpoints paths) ids →
    ids.Nodup →
      (∀ m ∈ c.methods, m.name ≠ "") ∧ (c.methods.map Method.name).Nodup := by
  intro hall
  have hnodup :=
    (hall (withOperations "get_pet" "get-pet") .standard _ _ ["get_pet", "get-pet"] rfl rfl
      (.cons rfl (.cons rfl .nil)) (by decide)).2
  have hnames : ¬ ["getPet", "getPet"].Nodup := by decide
  exact hnames hnodup

end Contract

end ServiceContract
