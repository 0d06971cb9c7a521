import ServiceContract.Document.Node

/-!
# Sizes of trees

A node without links is a tree: each way of reading it gives nodes that are trees and no larger.

## Main definitions

* `Node.isTree`: whether a node has no links.

## Main results

* `Node.opened_of_isTree`: a tree stands for itself.
* `Node.size_le_of_mem_items`: an item is no larger than what it is an item of.
* `Node.size_lt_of_get`: what a key names is smaller than the map, if it has items.
-/

namespace ServiceContract.Node

mutual

/-- Whether a node has no links. -/
def isTree : Node → Bool
  | .leaf _ _ => true
  | .list _ items => areTrees items
  | .map _ entries => areTreeEntries entries
  | .link _ _ => false

/-- Whether no node of a list has links. -/
def areTrees : List Node → Bool
  | [] => true
  | n :: ns => isTree n && areTrees ns

/-- Whether no node of the entries of a map has links. -/
def areTreeEntries : List (Scalar × Node) → Bool
  | [] => true
  | (_, n) :: es => isTree n && areTreeEntries es

end

/-- A tree stands for itself. -/
theorem opened_of_isTree {n : Node} (h : n.isTree = true) : n.opened = n := by
  cases n with
  | link a rings => simp [isTree] at h
  | _ => rfl

theorem isTree_of_mem {n : Node} {ns : List Node} (hs : areTrees ns = true) (h : n ∈ ns) :
    n.isTree = true := by
  induction ns with
  | nil => cases h
  | cons m ns ih =>
    simp only [areTrees, Bool.and_eq_true] at hs
    rcases List.mem_cons.1 h with rfl | h
    · exact hs.1
    · exact ih hs.2 h

theorem isTree_of_mem_entries {e : Scalar × Node} {es : List (Scalar × Node)}
    (hs : areTreeEntries es = true) (h : e ∈ es) : e.2.isTree = true := by
  induction es with
  | nil => cases h
  | cons m es ih =>
    obtain ⟨k, n⟩ := m
    simp only [areTreeEntries, Bool.and_eq_true] at hs
    rcases List.mem_cons.1 h with rfl | h
    · exact hs.1
    · exact ih hs.2 h

/-! ### Sizes -/

theorem one_le_size (n : Node) : 1 ≤ n.size := by
  cases n <;> simp only [size] <;> omega

theorem size_le_itemsSize {n : Node} {ns : List Node} (h : n ∈ ns) : n.size ≤ itemsSize ns := by
  induction ns with
  | nil => cases h
  | cons m ns ih =>
    simp only [itemsSize]
    rcases List.mem_cons.1 h with rfl | h
    · omega
    · have := ih h
      omega

theorem size_lt_entriesSize {e : Scalar × Node} {es : List (Scalar × Node)} (h : e ∈ es) :
    e.2.size < entriesSize es := by
  induction es with
  | nil => cases h
  | cons m es ih =>
    obtain ⟨k, n⟩ := m
    simp only [entriesSize]
    rcases List.mem_cons.1 h with rfl | h
    · simp only
      omega
    · have := ih h
      omega

/-- What a key of a tree names is a tree and smaller than the map. -/
theorem size_lt_of_lookup? {key : String} {es : List (Scalar × Node)} {n : Node}
    (ht : areTreeEntries es = true) (h : lookup? key es = some n) :
    n.isTree = true ∧ n.size < entriesSize es := by
  obtain ⟨e, he, rfl⟩ := Option.map_eq_some_iff.1 h
  have hm := List.mem_of_find?_eq_some he
  have he := isTree_of_mem_entries ht hm
  rw [opened_of_isTree he]
  exact ⟨he, size_lt_entriesSize hm⟩

/-- An item of a tree is a tree and no larger than what it is an item of. -/
theorem size_le_of_mem_items {n m : Node} {ns : List Node} (ht : n.isTree = true)
    (h : n.items = .ok ns) (hm : m ∈ ns) : m.isTree = true ∧ m.size ≤ n.size := by
  cases n with
  | leaf a s =>
    cases s <;> simp only [items, Except.ok.injEq, reduceCtorEq] at h
    subst h
    obtain ⟨c, _, rfl⟩ := List.mem_map.1 hm
    exact ⟨rfl, one_le_size _⟩
  | list a is =>
    simp only [items, Except.ok.injEq] at h
    subst h
    obtain ⟨d, hd, rfl⟩ := List.mem_map.1 hm
    have hd' := isTree_of_mem ht hd
    rw [opened_of_isTree hd']
    have := size_le_itemsSize hd
    simp only [size]
    exact ⟨hd', by omega⟩
  | map a es =>
    simp only [items, Except.ok.injEq] at h
    subst h
    obtain ⟨e, _, rfl⟩ := List.mem_map.1 hm
    exact ⟨rfl, one_le_size _⟩
  | link a rings => simp [isTree] at ht

/-- What a key of a tree names is smaller than the map, if it has items; null, which stands for an
absent value, has none. -/
theorem size_lt_of_get {n c : Node} {ns : List Node} {key : String} (ht : n.isTree = true)
    (h : n.get key = .ok c) (hc : c.items = .ok ns) : c.isTree = true ∧ c.size < n.size := by
  cases n with
  | leaf a s => simp [get, get?, bind, Except.bind] at h
  | list a is => simp [get, get?, bind, Except.bind] at h
  | link a rings => simp [isTree] at ht
  | map a es =>
    simp only [get, get?, bind, Except.bind, pure, Except.pure, Except.ok.injEq] at h
    cases hl : lookup? key es with
    | none =>
      rw [hl] at h
      subst h
      simp [null, items] at hc
    | some d =>
      rw [hl] at h
      simp only [Option.getD_some] at h
      subst h
      have := size_lt_of_lookup? ht hl
      simp only [size]
      exact ⟨this.1, by omega⟩

end ServiceContract.Node
