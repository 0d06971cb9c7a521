import ServiceContract.Proofs.Document.Json
import ServiceContract.Proofs.Document.Reordered

/-!
# Paths of the documents of values

The paths of a document of a value stand in the map at `paths`. In a JSON document their keys are
texts that are different from each other.

## Main definitions

* `Value.ItemsReordered`: documents that differ in the order of the keys inside path items.

## Main results

* `Value.ItemsReordered.documentPaths`: the path items of such documents are alike.
* `documentPaths_keys`: the keys of the paths in a JSON document.
-/

namespace ServiceContract

namespace Value

/-- The values are the same, or maps with the same entries in another order. -/
inductive Alike : Value → Value → Prop
  | refl (v : Value) : Alike v v
  | reorder {es es' : List (Scalar × Value)} (h : es.Perm es') : Alike (.map es) (.map es')

/-- The keys inside the path items are in another order, and all else is the same. -/
def ItemsReordered (v v' : Value) : Prop :=
  ∃ before items items' after, v = .map (before ++ (.text "paths", .map items) :: after) ∧
    v' = .map (before ++ (.text "paths", .map items') :: after) ∧
      List.Forall₂ (fun e e' => e.1 = e'.1 ∧ e.2.Alike e'.2) items items'

theorem Alike.ofValue {v v' : Value} (h : v.Alike v') (hv : v.isKeyed = true) (steps : List Step) :
    (Node.ofValue steps v).Alike (Node.ofValue steps v') := by
  cases h with
  | refl => exact .refl _
  | reorder h =>
    rw [isKeyed, Bool.and_eq_true, decide_eq_true_eq] at hv
    rw [Node.ofValue, Node.ofValue, Node.ofEntries_eq_map, Node.ofEntries_eq_map]
    refine .reorder _ (h.map _) ?_
    rw [List.map_map]
    exact hv.1

end Value

namespace Node

/-- The entry of a map with a key. -/
theorem get?_ofValue_map (steps : List Step) (es : List (Scalar × Value)) (key : String) :
    (ofValue steps (.map es)).get? key =
      .ok ((es.find? fun e => e.1 == .text key).map fun e => ofValue (.key e.1 :: steps) e.2) := by
  rw [ofValue, get?, lookup?, ofEntries_eq_map, List.find?_map, Option.map_map]
  simp only [Function.comp_def, opened_ofValue]

section Entry

variable {before after : List (Scalar × Value)} {key : String}

/-- The first entry with a key stands at it. -/
theorem get?_ofValue_entry (h : ∀ e ∈ before, e.1 ≠ .text key) (steps : List Step) (w : Value) :
    (ofValue steps (.map (before ++ (.text key, w) :: after))).get? key =
      .ok (some (ofValue (.key (.text key) :: steps) w)) := by
  rw [get?_ofValue_map, find?_entry h]
  rfl

theorem get_ofValue_entry (h : ∀ e ∈ before, e.1 ≠ .text key) (steps : List Step) (w : Value) :
    (ofValue steps (.map (before ++ (.text key, w) :: after))).get key =
      .ok (ofValue (.key (.text key) :: steps) w) := by
  rw [get, get?_ofValue_entry h]
  rfl

/-- A map with an entry counts as present. -/
theorem orEmpty_ofValue_entry (before after : List (Scalar × Value)) (e : Scalar × Value)
    (steps : List Step) :
    (ofValue steps (.map (before ++ e :: after))).orEmpty =
      ofValue steps (.map (before ++ e :: after)) := by
  rw [orEmpty, ofValue, ofEntries_eq_map, isTruthy, List.map_append, List.map_cons]
  simp

end Entry

/-- The keys of a map are its items. -/
theorem itemsIfAny_ofValue_map (steps : List Step) (es : List (Scalar × Value)) :
    (ofValue steps (.map es)).itemsIfAny =
      .ok ((es.map Prod.fst).map fun key => .leaf (.label key) key) := by
  rw [ofValue, ofEntries_eq_map, itemsIfAny, items, List.map_map, List.map_map]
  cases es with
  | nil => rfl
  | cons e es => rfl

/-- The entries of a map. -/
theorem entriesIfAny_ofValue_map (steps : List Step) (es : List (Scalar × Value)) :
    (ofValue steps (.map es)).entriesIfAny =
      .ok (es.map fun e => (e.1, ofValue (.key e.1 :: steps) e.2)) := by
  rw [ofValue, ofEntries_eq_map, entriesIfAny, entries, List.map_map]
  simp only [Function.comp_def, opened_ofValue]
  cases es with
  | nil => rfl
  | cons e es => rfl

end Node

/-- The paths of the document of a value. -/
theorem documentPaths_ofValue {before items after : List (Scalar × Value)}
    (h : ∀ e ∈ before, e.1 ≠ .text "paths") :
    documentPaths (.ofValue (.map (before ++ (.text "paths", .map items) :: after))) =
      .ok (items.map fun e => (e.1, .ofValue [.key e.1, .key (.text "paths")] e.2)) := by
  rw [documentPaths, Document.ofValue, Node.get_ofValue_entry h]
  exact Node.entriesIfAny_ofValue_map [.key (.text "paths")] items

/-- Where the keys inside the path items are in another order, the path items are alike. -/
theorem Value.ItemsReordered.documentPaths {v v' : Value} (h : v.ItemsReordered v')
    (hv : v.isKeyed = true) {paths paths' : List (Scalar × Node)}
    (hpaths : documentPaths (.ofValue v) = .ok paths)
    (hpaths' : ServiceContract.documentPaths (.ofValue v') = .ok paths') :
    List.Forall₂ (fun e e' => e.1 = e'.1 ∧ e.2.Alike e'.2) paths paths' := by
  obtain ⟨before, items, items', after, rfl, rfl, hitems⟩ := h
  obtain ⟨hbefore, hitem⟩ := isKeyed_entry hv
  rw [documentPaths_ofValue hbefore] at hpaths hpaths'
  cases hpaths
  cases hpaths'
  rw [List.forall₂_map_left_iff, List.forall₂_map_right_iff]
  rw [isKeyed, Bool.and_eq_true, entriesKeyed_iff] at hitem
  refine ((List.forall₂_and_left _ _).mpr ⟨hitem.2, hitems⟩).imp fun e e' h => ?_
  obtain ⟨hkeyed, hkey, halike⟩ := h
  refine ⟨hkey, ?_⟩
  rw [← hkey]
  exact halike.ofValue hkeyed _

/-- The paths of a document of a value are none, or those of a map. -/
theorem documentPaths_eq_ok {v : Value} {paths : List (Scalar × Node)}
    (h : documentPaths (.ofValue v) = .ok paths) : paths = [] ∨ ∃ es items,
      v = .map es ∧ (.text "paths", .map items) ∈ es ∧ paths.map Prod.fst = items.map Prod.fst := by
  obtain ⟨n, hn, hpaths⟩ := except_bind_eq_ok.mp h
  obtain ⟨found, hfound, hn⟩ := except_bind_eq_ok.mp hn
  cases hn
  cases v with
  | map es =>
    rw [Document.ofValue, Node.get?_ofValue_map] at hfound
    cases hfound
    cases hfind : es.find? fun e => e.1 == .text "paths" with
    | none =>
      rw [hfind] at hpaths
      cases hpaths
      exact .inl rfl
    | some e =>
      rw [hfind] at hpaths
      obtain ⟨key, w⟩ := e
      have hkey : key = .text "paths" := by simpa using List.find?_some hfind
      subst hkey
      have hpaths : (Node.ofValue [.key (.text "paths")] w).entriesIfAny = .ok paths := hpaths
      cases w with
      | map items =>
        rw [Node.entriesIfAny_ofValue_map] at hpaths
        cases hpaths
        refine .inr ⟨es, items, rfl, List.mem_of_find?_eq_some hfind, ?_⟩
        rw [List.map_map]
        rfl
      | _ =>
        -- Nothing else has entries, and what counts as absent has none.
        rw [Node.entriesIfAny] at hpaths
        split_ifs at hpaths
        · cases hpaths
        · cases hpaths
          exact .inl rfl
  | _ => cases hfound

/-- The keys of the paths in a JSON document are texts that are different from each other. -/
theorem documentPaths_keys {v : Value} {paths : List (Scalar × Node)} (hkeyed : v.isKeyed = true)
    (htexts : v.TextKeyed) (h : documentPaths (.ofValue v) = .ok paths) :
    (paths.map Prod.fst).Nodup ∧ ∀ key ∈ paths.map Prod.fst, ∃ text, key = .text text := by
  rcases documentPaths_eq_ok h with rfl | ⟨es, items, rfl, hmem, hkeys⟩
  · exact ⟨List.nodup_nil, fun _ h => absurd h List.not_mem_nil⟩
  · rw [hkeys]
    constructor
    · rw [Value.isKeyed, Bool.and_eq_true, Value.entriesKeyed_iff] at hkeyed
      have hitems := hkeyed.2 _ hmem
      rw [Value.isKeyed, Bool.and_eq_true, decide_eq_true_eq] at hitems
      exact hitems.1
    · cases htexts with
      | map _ htexts =>
        cases htexts _ hmem with
        | map hk _ => exact List.forall_mem_map.mpr hk

end ServiceContract
