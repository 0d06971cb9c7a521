import ServiceContract.Proofs.Document.Fuel

/-!
# Documents that share nodes

Two documents may be different and still have nodes in common. If such nodes lead, down and along
references, to nodes that the documents have in common too, and to the same ones, the documents
cannot be told apart from there. The documents may be of different sizes, so what is read must not
depend on the bounds either.

## Main definitions

* `Document.Shares`: documents with nodes in common that lead to the same nodes in both.

## Main results

* `Document.IsTree.shares_self`: a document without links has all of its parts in common with
  itself.
* `Document.Shares.follow`: chains of references from nodes in common.
-/

namespace ServiceContract

/-- Composed results are the same if they begin in the same way and go on alike. -/
theorem except_bind_congr {α β : Type} {x y : Except Fault α} {k l : α → Except Fault β} (h : x = y)
    (hk : ∀ a, x = .ok a → k a = l a) : x >>= k = y >>= l := by
  subst h
  cases x with
  | error fault => rfl
  | ok a => exact hk a rfl

namespace Document

/-- The nodes with the property `P` are parts of both documents. What they hold has the property,
and so has what they refer to, which is the same in both documents. -/
structure Shares (P : Node → Prop) (doc doc' : Document) : Prop where
  tree : doc.IsTree
  tree' : doc'.IsTree
  part : ∀ {n}, P n → doc.Part n
  part' : ∀ {n}, P n → doc'.Part n
  closed : doc.Closed P
  resolve : ∀ {n value ref}, P n → n.get "$ref" = .ok value → value.asText = .ok ref →
    doc.resolve ref = doc'.resolve ref

variable {doc doc' : Document} {P : Node → Prop} {n : Node}

theorem IsTree.shares_self (h : doc.IsTree) : Shares doc.Part doc doc where
  tree := h
  tree' := h
  part := id
  part' := id
  closed := doc.part_hereditary.toClosed
  resolve _ _ _ := rfl

namespace Shares

variable (h : Shares P doc doc')
include h

theorem symm : Shares P doc' doc where
  tree := h.tree'
  tree' := h.tree
  part := h.part'
  part' := h.part
  closed :=
    { toDownward := h.closed.toDownward
      refer := fun hn hget htext hm =>
        h.closed.refer hn hget htext ((h.resolve hn hget htext).trans hm) }
  resolve hn hget htext := (h.resolve hn hget htext).symm

theorem followFrom (fuel : Nat) (seen : List String) (hn : P n) :
    doc.followFrom fuel seen n = doc'.followFrom fuel seen n := by
  induction fuel generalizing seen n with
  | zero => rfl
  | succ fuel ih =>
    rw [Document.followFrom, Document.followFrom]
    refine bind_congr fun isReference => ?_
    split_ifs
    · refine except_bind_congr rfl fun value hvalue => except_bind_congr rfl fun ref href => ?_
      split_ifs
      · rfl
      · exact except_bind_congr (h.resolve hn hvalue href) fun target htarget =>
          ih _ (h.closed.refer hn hvalue href htarget)
    · rfl

/-- Chains of references from nodes in common have the same ends. -/
theorem follow (hn : P n) : doc.follow n = doc'.follow n := by
  have hleft : doc.size + 2 ≤ max doc.size doc'.size + 2 :=
    Nat.add_le_add_right (Nat.le_max_left _ _) 2
  have hright : doc'.size + 2 ≤ max doc.size doc'.size + 2 :=
    Nat.add_le_add_right (Nat.le_max_right _ _) 2
  rw [← h.tree.followFrom_eq (h.part hn) hleft, h.followFrom _ [] hn,
    h.tree'.followFrom_eq (h.part' hn) hright]

end Shares

end Document

end ServiceContract
