import ServiceContract.Proofs.Document.Subnode
import ServiceContract.Proofs.Schema.Fault
import ServiceContract.Proofs.Schema.Part

/-!
# Sizes of schemas

A schema without links is larger than every schema that it stands for or that it has as its items or
values. So its wrappers come to an end, and a resolution that goes on and on goes through references
and declarations again and again.

## Main results

* `Document.IsTree.unwrap_ends`: wrappers come to an end.
* `Resolver.size_lt_of_form`: the schemas that a form speaks of are smaller.
-/

namespace ServiceContract

namespace Node

variable {n m : Node} {label : String} {fuel : Nat}

/-! ### Wrappers -/

theorem unwrapWithin_ends (ht : n.isTree = true) (hfuel : n.size < fuel) :
    FailsWith (· ≠ .endless) (n.unwrapWithin label fuel) := by
  induction fuel generalizing n with
  | zero => omega
  | succ fuel ih =>
    refine (readingFaults_ne_endless.stripLayer n label).bind fun layer hlayer => ?_
    cases layer with
    | none => exact .ok _
    | some inner =>
      obtain ⟨hinner, hlt⟩ := size_lt_of_stripLayer ht hlayer
      exact ih hinner (by omega)

theorem size_le_of_unwrapWithin (ht : n.isTree = true) (h : n.unwrapWithin label fuel = .ok m) :
    m.size ≤ n.size := by
  induction fuel generalizing n with
  | zero => cases h
  | succ fuel ih =>
    obtain ⟨layer, hlayer, h⟩ := except_bind_eq_ok.mp h
    cases layer with
    | none =>
      cases h
      exact Nat.le_refl _
    | some inner =>
      obtain ⟨hinner, hlt⟩ := size_lt_of_stripLayer ht hlayer
      have hle := ih hinner h
      omega

/-! ### Keywords -/

/-- A key that names something other than null is a key of the map. -/
theorem has_of_get {key : String} (h : n.get key = .ok m) (hm : m ≠ null) :
    n.has key = .ok true := by
  cases n with
  | map a es =>
    cases hlookup : lookup? key es with
    | none =>
      rw [get, get?, hlookup] at h
      exact absurd (Except.ok.inj h).symm hm
    | some found => rw [has, hlookup, Option.isSome_some]
  | leaf a s => cases h
  | list a items => cases h
  | link a rings => cases h

/-- What a key names is smaller than the map, if it is present. -/
theorem size_lt_of_get_ne_null {key : String} (ht : n.isTree = true) (h : n.get key = .ok m)
    (hm : m ≠ null) : m.size < n.size := by
  cases n with
  | map a es =>
    obtain ⟨found, hfound, h⟩ := except_bind_eq_ok.mp h
    cases found with
    | none =>
      cases h
      exact absurd rfl hm
    | some found =>
      cases h
      have hlt := (size_lt_of_lookup? ht (Except.ok.inj hfound)).2
      rw [size, Option.getD_some]
      omega
  | _ => cases h

/-- A schema that states a type is larger than the empty map. -/
theorem one_lt_size_of_statedType {type : Node} (ht : n.isTree = true)
    (h : n.statedType label = .ok type) (hne : type ≠ null) : 1 < n.size := by
  obtain ⟨stated, hstated, h⟩ := except_bind_eq_ok.mp h
  have hpresent : stated ≠ null := by
    rintro rfl
    exact hne (Except.ok.inj h).symm
  exact Nat.lt_of_le_of_lt stated.one_le_size (size_lt_of_get_ne_null ht hstated hpresent)

end Node

/-- The wrappers of a part come to an end. -/
theorem Document.IsTree.unwrap_ends {doc : Document} (h : doc.IsTree) {n : Node} (hn : doc.Part n)
    (label : String) : FailsWith (· ≠ .endless) (doc.unwrap n label) := by
  have hbounds := h.bounds hn
  exact Node.unwrapWithin_ends hbounds.isTree (Nat.lt_add_right 1 (Nat.lt_succ_of_le hbounds.size))

namespace Resolver

variable {r : Resolver} {schema : Node} {label : String} {form : SchemaForm}

/-- The schemas that a form speaks of are smaller than the schema. -/
theorem size_lt_of_form (ht : schema.isTree = true) (h : r.form schema label = .ok form) :
    ∀ n ∈ form.schemas, n.size < schema.size := by
  cases formReason h with
  | wrapper hlayer hunwrap =>
    obtain ⟨hlayer', hlt⟩ := Node.size_lt_of_stripLayer ht hlayer
    have hle := Node.size_le_of_unwrapWithin hlayer' hunwrap
    exact List.forall_mem_singleton.mpr (Nat.lt_of_le_of_lt hle hlt)
  | @list type items htype harray hitems =>
    refine List.forall_mem_singleton.mpr ?_
    by_cases hitem : items.isTruthy = true
    · rw [Node.orEmpty, if_pos hitem]
      refine Node.size_lt_of_get_ne_null ht hitems ?_
      rintro rfl
      cases hitem
    · rw [Node.orEmpty, if_neg hitem]
      refine Node.one_lt_size_of_statedType ht htype ?_
      rintro rfl
      cases harray
  | map hvalues =>
    refine List.forall_mem_singleton.mpr (Node.size_lt_of_get_ne_null ht hvalues ?_)
    rintro ⟨⟩
  | absent | reference | inline | primitive => exact fun n hn => absurd hn List.not_mem_nil

end Resolver

end ServiceContract
