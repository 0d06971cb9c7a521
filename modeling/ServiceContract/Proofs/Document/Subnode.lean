import ServiceContract.Document.Size
import ServiceContract.Proofs.Document.Part

/-!
# The nodes of finite documents

A document without links has finitely many nodes, no more than its size. A part of it is one of its
nodes unless it is blank or a key.

## Main definitions

* `Node.subnodes`: the nodes of a node, itself included.
* `Document.IsTree`: documents without links.
* `Document.Counted`: documents with no more parts than their size says, with or without links.

## Main results

* `Node.length_subnodes_le`: there are no more nodes than the size says.
* `Document.IsTree.mem_subnodes`: parts among the nodes.
-/

namespace ServiceContract

/-! ### Nodes -/

namespace Node

mutual

/-- The nodes of a node, itself included. -/
def subnodes : Node → List Node
  | .leaf a s => [.leaf a s]
  | .list a items => .list a items :: itemSubnodes items
  | .map a entries => .map a entries :: entrySubnodes entries
  | .link a rings => [.link a rings]

/-- The nodes of a list of nodes. -/
def itemSubnodes : List Node → List Node
  | [] => []
  | n :: ns => subnodes n ++ itemSubnodes ns

/-- The nodes of the entries of a map. -/
def entrySubnodes : List (Scalar × Node) → List Node
  | [] => []
  | (_, n) :: es => subnodes n ++ entrySubnodes es

end

mutual

/-- There are no more nodes than the size says. -/
theorem length_subnodes_le : ∀ n : Node, n.subnodes.length ≤ n.size
  | .leaf _ _ => by simp [subnodes, size]
  | .list _ items => by
    have := length_itemSubnodes_le items
    simp only [subnodes, size, List.length_cons]
    omega
  | .map _ entries => by
    have := length_entrySubnodes_le entries
    simp only [subnodes, size, List.length_cons]
    omega
  | .link _ _ => by simp [subnodes, size]

theorem length_itemSubnodes_le : ∀ ns : List Node, (itemSubnodes ns).length ≤ itemsSize ns
  | [] => by simp [itemSubnodes, itemsSize]
  | n :: ns => by
    have := length_subnodes_le n
    have := length_itemSubnodes_le ns
    simp only [itemSubnodes, itemsSize, List.length_append]
    omega

theorem length_entrySubnodes_le :
    ∀ es : List (Scalar × Node), (entrySubnodes es).length ≤ entriesSize es
  | [] => by simp [entrySubnodes, entriesSize]
  | (_, n) :: es => by
    have := length_subnodes_le n
    have := length_entrySubnodes_le es
    simp only [entrySubnodes, entriesSize, List.length_append]
    omega

end

theorem self_mem_subnodes (n : Node) : n ∈ n.subnodes := by
  cases n <;> simp [subnodes]

theorem mem_itemSubnodes {m : Node} {ns : List Node} :
    m ∈ itemSubnodes ns ↔ ∃ n ∈ ns, m ∈ n.subnodes := by
  induction ns with
  | nil => simp [itemSubnodes]
  | cons n ns ih => simp [itemSubnodes, ih]

theorem mem_entrySubnodes {m : Node} {es : List (Scalar × Node)} :
    m ∈ entrySubnodes es ↔ ∃ e ∈ es, m ∈ e.2.subnodes := by
  induction es with
  | nil => simp [entrySubnodes]
  | cons e es ih => simp [entrySubnodes, ih]

mutual

/-- The nodes of a node of a node are nodes of it. -/
theorem subnodes_trans {k m : Node} (hk : k ∈ m.subnodes) :
    ∀ {n : Node}, m ∈ n.subnodes → k ∈ n.subnodes
  | .leaf a s, hm => by
    rw [subnodes, List.mem_singleton] at hm
    exact hm ▸ hk
  | .list a items, hm => by
    rw [subnodes, List.mem_cons] at hm ⊢
    rcases hm with rfl | hm
    · exact List.mem_cons.mp hk
    · exact .inr (itemSubnodes_trans hk hm)
  | .map a entries, hm => by
    rw [subnodes, List.mem_cons] at hm ⊢
    rcases hm with rfl | hm
    · exact List.mem_cons.mp hk
    · exact .inr (entrySubnodes_trans hk hm)
  | .link a rings, hm => by
    rw [subnodes, List.mem_singleton] at hm
    exact hm ▸ hk

theorem itemSubnodes_trans {k m : Node} (hk : k ∈ m.subnodes) :
    ∀ {ns : List Node}, m ∈ itemSubnodes ns → k ∈ itemSubnodes ns
  | [], hm => by cases hm
  | n :: ns, hm => by
    rw [itemSubnodes, List.mem_append] at hm ⊢
    exact hm.imp (subnodes_trans hk) (itemSubnodes_trans hk)

theorem entrySubnodes_trans {k m : Node} (hk : k ∈ m.subnodes) :
    ∀ {es : List (Scalar × Node)}, m ∈ entrySubnodes es → k ∈ entrySubnodes es
  | [], hm => by cases hm
  | (_, n) :: es, hm => by
    rw [entrySubnodes, List.mem_append] at hm ⊢
    exact hm.imp (subnodes_trans hk) (entrySubnodes_trans hk)

end

mutual

/-- The nodes of a value have no links. -/
theorem isTree_ofValue : ∀ (steps : List Step) (v : Value), (ofValue steps v).isTree = true
  | _, .scalar _ => rfl
  | steps, .list items => areTrees_ofItems steps 0 items
  | steps, .map entries => areTreeEntries_ofEntries steps entries
  | _, .again _ => rfl

theorem areTrees_ofItems : ∀ (steps : List Step) (i : Nat) (vs : List Value),
    areTrees (ofItems steps i vs) = true
  | _, _, [] => rfl
  | steps, i, v :: vs => by
    rw [ofItems, areTrees, isTree_ofValue, areTrees_ofItems, Bool.and_self]

theorem areTreeEntries_ofEntries : ∀ (steps : List Step) (es : List (Scalar × Value)),
    areTreeEntries (ofEntries steps es) = true
  | _, [] => rfl
  | steps, (k, v) :: es => by
    rw [ofEntries, areTreeEntries, isTree_ofValue, areTreeEntries_ofEntries, Bool.and_self]

end

end Node

/-! ### Documents without links -/

namespace Document

/-- The document has no links, and its size counts all of its nodes. -/
structure IsTree (doc : Document) : Prop where
  root : doc.root.isTree = true
  size : doc.root.size ≤ doc.size

theorem isTree_ofValue (v : Value) : (ofValue v).IsTree :=
  ⟨Node.isTree_ofValue [] v, Nat.le_refl _⟩

/-- A node without links that is no larger than the document, and one of its nodes unless it is
blank or a key. -/
structure Bounds (doc : Document) (n : Node) : Prop where
  isTree : n.isTree = true
  size : n.size ≤ doc.size
  mem : n ∈ doc.root.subnodes ∨ n.IsBlank ∨ ∃ a k, n = .leaf (Address.ofKey k a) k

namespace Bounds

variable {doc : Document} {a : Address} {n : Node}

/-- A list is neither blank nor a key. -/
theorem list_mem_subnodes {items : List Node} (h : doc.Bounds (.list a items)) :
    .list a items ∈ doc.root.subnodes := by
  rcases h.mem with hmem | (hnull | hempty | ⟨_, hchar⟩) | ⟨_, _, hkey⟩
  · exact hmem
  all_goals contradiction

/-- A map with entries is neither blank nor a key. -/
theorem map_mem_subnodes {entries : List (Scalar × Node)} (h : doc.Bounds (.map a entries))
    (hne : entries ≠ []) : .map a entries ∈ doc.root.subnodes := by
  rcases h.mem with hmem | (hnull | hempty | ⟨_, hchar⟩) | ⟨_, _, hkey⟩
  · exact hmem
  · cases hnull
  · cases hempty
    exact absurd rfl hne
  · cases hchar
  · cases hkey

/-- An item of a list is one of the nodes of the document. -/
theorem item {items : List Node} (h : doc.Bounds (.list a items)) (hn : n ∈ items) :
    doc.Bounds n.opened := by
  have htree := Node.isTree_of_mem h.isTree hn
  rw [Node.opened_of_isTree htree]
  refine ⟨htree, ?_, .inl (Node.subnodes_trans ?_ h.list_mem_subnodes)⟩
  · have hle := Node.size_le_itemsSize hn
    have hlist := h.size
    simp only [Node.size] at hlist
    omega
  · rw [Node.subnodes, List.mem_cons, Node.mem_itemSubnodes]
    exact .inr ⟨n, hn, n.self_mem_subnodes⟩

/-- What a map holds is one of the nodes of the document. -/
theorem entry {entries : List (Scalar × Node)} {e : Scalar × Node} (h : doc.Bounds (.map a entries))
    (he : e ∈ entries) : doc.Bounds e.2.opened ∧ e.2.opened ∈ doc.root.subnodes := by
  have htree := Node.isTree_of_mem_entries h.isTree he
  have hmem : e.2 ∈ doc.root.subnodes := by
    refine Node.subnodes_trans ?_ (h.map_mem_subnodes (List.ne_nil_of_mem he))
    rw [Node.subnodes, List.mem_cons, Node.mem_entrySubnodes]
    exact .inr ⟨e, he, e.2.self_mem_subnodes⟩
  rw [Node.opened_of_isTree htree]
  refine ⟨⟨htree, ?_, .inl hmem⟩, hmem⟩
  have hlt := Node.size_lt_entriesSize he
  have hmap := h.size
  simp only [Node.size] at hmap
  omega

end Bounds

namespace IsTree

variable {doc : Document} (h : doc.IsTree) {n : Node}
include h

theorem one_le_size : 1 ≤ doc.size :=
  Nat.le_trans doc.root.one_le_size h.size

/-- The parts of a document without links. -/
theorem bounds (hn : doc.Part n) : doc.Bounds n := by
  have hsize := h.one_le_size
  induction hn with
  | root => exact ⟨h.root, h.size, .inl doc.root.self_mem_subnodes⟩
  | blank hblank =>
    refine ⟨?_, ?_, .inr (.inl hblank)⟩
    · rcases hblank with rfl | rfl | ⟨c, rfl⟩ <;> rfl
    · rcases hblank with rfl | rfl | ⟨c, rfl⟩ <;> exact hsize
  | key a k => exact ⟨rfl, hsize, .inr (.inr ⟨a, k, rfl⟩)⟩
  | item _ hm ih => exact ih.item hm
  | entry _ he ih => exact (ih.entry he).1

/-- A part that has a key is one of the nodes of the document, and so is what the key names. -/
theorem mem_subnodes_of_get {key : String} {m : Node} (hn : doc.Part n)
    (hhas : n.has key = .ok true) (hget : n.get key = .ok m) :
    n ∈ doc.root.subnodes ∧ m ∈ doc.root.subnodes := by
  cases n with
  | map a es =>
    obtain ⟨e, he, rfl⟩ : ∃ e ∈ es, e.2.opened = m := by
      obtain ⟨found, hfound⟩ := Option.isSome_iff_exists.mp (Except.ok.inj hhas)
      obtain ⟨e, he, rfl⟩ := Option.map_eq_some_iff.mp hfound
      rw [Node.get, Node.get?, hfound] at hget
      exact ⟨e, List.mem_of_find?_eq_some he, Except.ok.inj hget⟩
    have hbounds := h.bounds hn
    exact ⟨hbounds.map_mem_subnodes (List.ne_nil_of_mem he), (hbounds.entry he).2⟩
  | _ => cases hget

end IsTree

/-! ### Documents with as many nodes as their size says -/

/-- The maps with entries that are parts of the document are no more than its size. -/
def Counted (doc : Document) : Prop :=
  ∃ l : List Node, l.length ≤ doc.size ∧ ∀ {a e es}, doc.Part (.map a (e :: es)) →
    .map a (e :: es) ∈ l

theorem IsTree.counted {doc : Document} (h : doc.IsTree) : doc.Counted :=
  ⟨doc.root.subnodes, Nat.le_trans doc.root.length_subnodes_le h.size,
    fun hn => (h.bounds hn).map_mem_subnodes (List.cons_ne_nil _ _)⟩

/-- A part that has a key is a map with entries. -/
theorem mem_of_get {doc : Document} {l : List Node} {n m : Node} {key : String}
    (hl : ∀ {a e es}, doc.Part (.map a (e :: es)) → .map a (e :: es) ∈ l) (hn : doc.Part n)
    (hhas : n.has key = .ok true) (hget : n.get key = .ok m) : n ∈ l := by
  cases n with
  | map a es =>
    cases es with
    | nil => cases hhas
    | cons e es => exact hl hn
  | _ => cases hget

end Document

end ServiceContract
