import ServiceContract.Proofs.Document.Alike
import ServiceContract.Proofs.Document.Copy

/-!
# Documents with the entries of maps in another order

A node is *permuted* if the entries of maps in it, at any depth, are put into another order. The
same is then read from it at each key, up to the order of entries in what is read, and references of
permuted documents lead to permuted nodes or fail with the same fault.

## Main definitions

* `Node.Permuted`, `Document.Permuted`: nodes and documents with entries in another order.
* `Value.PermutedOnce`: values with the entries of one map in another order.

## Main results

* `Node.Permuted.get`, `Node.Permuted.has`: what is read at a key.
* `Document.Permuted.follow`: what references lead to.
* `Value.PermutedOnce.document`: documents in which one map is permuted.
-/

namespace ServiceContract

namespace Node

/-- The nodes are the same but for the order of the entries in maps. Where the order differs, the
keys are different from each other. -/
inductive Permuted : Node → Node → Prop
  | refl (n : Node) : Permuted n n
  | list (a : Address) {ns ms : List Node} (h : List.Forall₂ Permuted ns ms) :
    Permuted (.list a ns) (.list a ms)
  | map (a : Address) {es fs gs : List (Scalar × Node)} (hkeys : (es.map Prod.fst).Nodup)
    (h : List.Forall₂ (SameKey Permuted) es fs) (hperm : fs.Perm gs) :
    Permuted (.map a es) (.map a gs)

namespace Permuted

variable {n m : Node} (h : n.Permuted m)
include h

theorem opened : n.opened.Permuted m.opened := by
  cases h with
  | refl => exact .refl _
  | list a h => exact .list a h
  | map a hkeys h hperm => exact .map a hkeys h hperm

theorem isText (text : String) : n.isText text = m.isText text := by
  cases h <;> rfl

theorem asText : n.asText = m.asText := by
  cases h <;> rfl

theorem isTruthy : n.isTruthy = m.isTruthy := by
  cases h with
  | refl => rfl
  | list a h => cases h <;> rfl
  | map a hkeys h hperm =>
    rw [Node.isTruthy, Node.isTruthy, ← hperm.isEmpty_eq]
    cases h <;> rfl

theorem orEmpty : n.orEmpty.Permuted m.orEmpty := by
  rw [Node.orEmpty, Node.orEmpty, h.isTruthy]
  split_ifs
  · exact h
  · exact .refl _

end Permuted

theorem rel_refl (found : Option Node) : Option.Rel Permuted found found := by
  cases found with
  | none => exact .none
  | some n => exact .some (.refl n)

theorem rel_item? {ns ms : List Node} (h : List.Forall₂ Permuted ns ms) (i : ℕ) :
    Option.Rel Permuted (ns[i]?.map opened) (ms[i]?.map opened) := by
  induction h generalizing i with
  | nil => exact .none
  | cons hn _ ih =>
    cases i with
    | zero => exact .some hn.opened
    | succ i => exact ih i

theorem map_fst_of_sameKey {R : Node → Node → Prop} {es fs : List (Scalar × Node)}
    (h : List.Forall₂ (SameKey R) es fs) : fs.map Prod.fst = es.map Prod.fst := by
  induction h with
  | nil => rfl
  | cons he _ ih =>
    obtain ⟨key, -⟩ := he
    rw [List.map_cons, List.map_cons, ih]

/-- Entries in another order have permuted values at each key. -/
theorem rel_lookup?_of_perm {es fs gs : List (Scalar × Node)} (hkeys : (es.map Prod.fst).Nodup)
    (h : List.Forall₂ (SameKey Permuted) es fs) (hperm : fs.Perm gs) (key : String) :
    Option.Rel Permuted (lookup? key es) (lookup? key gs) := by
  rw [← lookup?_of_perm hperm (map_fst_of_sameKey h ▸ hkeys)]
  refine rel_lookup? (h.imp fun e f hef => ?_) key
  obtain ⟨k, hef⟩ := hef
  exact .mk k hef.opened

namespace Permuted

variable {n m : Node} (h : n.Permuted m)
include h

theorem get? (key : String) : Matches (Option.Rel Permuted) (n.get? key) (m.get? key) := by
  cases h with
  | refl => exact .refl rel_refl _
  | list => exact .error _
  | map a hkeys h hperm => exact .ok (rel_lookup?_of_perm hkeys h hperm key)

/-- What stands at a key. -/
theorem get (key : String) : Matches Permuted (n.get key) (m.get key) := by
  refine (h.get? key).bind fun found found' hfound => .ok ?_
  cases hfound with
  | none => exact .refl _
  | some hfound => exact hfound

theorem has (key : String) : n.has key = m.has key := by
  cases h with
  | refl => rfl
  | list a h =>
    refine congrArg Except.ok ?_
    induction h with
    | nil => rfl
    | cons hn _ ih => rw [List.any_cons, List.any_cons, hn.isText, ih]
  | map a hkeys h hperm =>
    have hrel := rel_lookup?_of_perm hkeys h hperm key
    rw [Node.has, Node.has]
    generalize lookup? key _ = found at hrel ⊢
    generalize lookup? key _ = found' at hrel ⊢
    cases hrel <;> rfl

theorem enter? (key : String) : Matches (Option.Rel Permuted) (n.enter? key) (m.enter? key) := by
  cases h with
  | refl => exact .refl rel_refl _
  | list a h =>
    refine .bind_right fun position => .ok ?_
    cases position with
    | none => exact .none
    | some i => exact rel_item? h i
  | map a hkeys h hperm => exact .ok (rel_lookup?_of_perm hkeys h hperm key)

end Permuted

end Node

namespace Document

open Node

/-- The roots of the documents are the same but for the order of entries. -/
structure Permuted (doc doc' : Document) : Prop where
  root : doc.root.Permuted doc'.root
  size : doc.size = doc'.size

theorem walk_permuted {n m : Node} (h : n.Permuted m) (ref : String) (segments : List (List Char)) :
    Matches Node.Permuted (walk ref n segments) (walk ref m segments) := by
  induction segments generalizing n m with
  | nil => exact .ok h
  | cons segment segments ih =>
    rw [walk, walk]
    refine (h.enter? _).bind fun found found' hfound => ?_
    cases hfound with
    | none => exact .error _
    | some hchild => exact ih hchild

namespace Permuted

variable {doc doc' : Document} (h : doc.Permuted doc')
include h

theorem resolve (ref : String) : Matches Node.Permuted (doc.resolve ref) (doc'.resolve ref) := by
  rw [Document.resolve, Document.resolve]
  split
  · refine (walk_permuted h.root ref _).bind fun n m hn => ?_
    cases hn with
    | refl => exact .refl .refl _
    | list => exact .error _
    | map a hkeys hentries hperm => exact .ok (.map a hkeys hentries hperm)
  · exact .error _

theorem followFrom (fuel : Nat) (seen : List String) {n m : Node} (hn : n.Permuted m) :
    Matches Node.Permuted (doc.followFrom fuel seen n) (doc'.followFrom fuel seen m) := by
  induction fuel generalizing seen n m with
  | zero => exact .error _
  | succ fuel ih =>
    rw [Document.followFrom, Document.followFrom, hn.has]
    refine .bind_right fun isReference => ?_
    split_ifs
    · refine (hn.get "$ref").bind fun value value' hvalue => ?_
      rw [hvalue.asText]
      refine .bind_right fun ref => ?_
      split_ifs
      · exact .ok hn
      · exact (h.resolve ref).bind fun a b hab => ih (ref :: seen) hab
    · exact .ok hn

/-- Chains of references end in permuted nodes. -/
theorem follow {n m : Node} (hn : n.Permuted m) :
    Matches Node.Permuted (doc.follow n) (doc'.follow m) := by
  rw [Document.follow, Document.follow, h.size]
  exact h.followFrom _ _ hn

end Permuted

end Document

/-! ### Documents of values -/

/-- In the value, at one place, the entries of a map are put into another order. -/
inductive Value.PermutedOnce : Value → Value → Prop
  | here {es es' : List (Scalar × Value)} (h : es.Perm es') : PermutedOnce (.map es) (.map es')
  | item (before after : List Value) {w w' : Value} (h : PermutedOnce w w') :
    PermutedOnce (.list (before ++ w :: after)) (.list (before ++ w' :: after))
  | entry (before after : List (Scalar × Value)) (k : Scalar) {w w' : Value}
    (h : PermutedOnce w w') :
    PermutedOnce (.map (before ++ (k, w) :: after)) (.map (before ++ (k, w') :: after))

namespace Node

theorem ofItems_append (steps : List Step) (i : ℕ) (vs ws : List Value) :
    ofItems steps i (vs ++ ws) = ofItems steps i vs ++ ofItems steps (i + vs.length) ws := by
  induction vs generalizing i with
  | nil => rfl
  | cons v vs ih =>
    rw [List.cons_append, ofItems, ih, ofItems, List.length_cons, List.cons_append,
      Nat.add_right_comm, Nat.add_assoc]

theorem itemsSize_append (ns ms : List Node) :
    itemsSize (ns ++ ms) = itemsSize ns + itemsSize ms := by
  induction ns with
  | nil => rw [List.nil_append, itemsSize, Nat.zero_add]
  | cons n ns ih => rw [List.cons_append, itemsSize, itemsSize, ih, Nat.add_assoc]

theorem entriesSize_append (es fs : List (Scalar × Node)) :
    entriesSize (es ++ fs) = entriesSize es + entriesSize fs := by
  induction es with
  | nil => rw [List.nil_append, entriesSize, Nat.zero_add]
  | cons e es ih => rw [List.cons_append, entriesSize, entriesSize, ih, ← Nat.add_assoc]

theorem entriesSize_of_perm {es fs : List (Scalar × Node)} (h : es.Perm fs) :
    entriesSize es = entriesSize fs := by
  induction h with
  | nil => rfl
  | cons e _ ih => rw [entriesSize, entriesSize, ih]
  | swap e f es =>
    simp only [entriesSize]
    omega
  | trans _ _ ih ih' => exact ih.trans ih'

end Node

namespace Value.PermutedOnce

open Node

variable {v v' : Value}

theorem ofValue (h : v.PermutedOnce v') (hv : v.isKeyed = true) (steps : List Step) :
    (ofValue steps v).Permuted (ofValue steps v') := by
  induction h generalizing steps with
  | @here es es' h =>
    rw [isKeyed, Bool.and_eq_true, decide_eq_true_eq] at hv
    rw [Node.ofValue, Node.ofValue, ofEntries_eq_map, ofEntries_eq_map]
    refine .map _ ?_ (List.forall₂_same.mpr fun e _ => .mk e.1 (.refl e.2)) (h.map _)
    rw [List.map_map]
    exact hv.1
  | @item before after w w' h ih =>
    rw [isKeyed, areKeyed_iff] at hv
    have hw := ih (hv w (List.mem_append_right before List.mem_cons_self))
    rw [Node.ofValue, Node.ofValue, ofItems_append, ofItems_append]
    exact .list _ (List.rel_append (List.forall₂_same.mpr fun n _ => .refl n)
      (.cons (hw _) (List.forall₂_same.mpr fun n _ => .refl n)))
  | @entry before after k w w' h ih =>
    have hw := ih (isKeyed_entry hv).2
    rw [isKeyed, Bool.and_eq_true, decide_eq_true_eq] at hv
    rw [Node.ofValue, Node.ofValue, ofEntries_eq_map, ofEntries_eq_map]
    refine .map _ ?_ ?_ (.refl _)
    · rw [List.map_map]
      exact hv.1
    · rw [List.map_append, List.map_append, List.map_cons, List.map_cons]
      exact List.rel_append (List.forall₂_same.mpr fun e _ => .mk e.1 (.refl e.2))
        (.cons (.mk k (hw _)) (List.forall₂_same.mpr fun e _ => .mk e.1 (.refl e.2)))

theorem size_ofValue (h : v.PermutedOnce v') (steps : List Step) :
    (Node.ofValue steps v).size = (Node.ofValue steps v').size := by
  induction h generalizing steps with
  | here h =>
    rw [Node.ofValue, Node.ofValue, ofEntries_eq_map, ofEntries_eq_map, Node.size, Node.size,
      entriesSize_of_perm (h.map _)]
  | item before after h ih =>
    simp only [Node.ofValue, Node.size, ofItems_append, ofItems, itemsSize_append, itemsSize, ih]
  | entry before after k h ih =>
    simp only [Node.ofValue, Node.size, ofEntries_eq_map, List.map_append, List.map_cons,
      entriesSize_append, entriesSize, ih]

/-- The documents of such values are permuted. -/
theorem document (h : v.PermutedOnce v') (hv : v.isKeyed = true) :
    (Document.ofValue v).Permuted (.ofValue v') where
  root := h.ofValue hv []
  size := h.size_ofValue []

end Value.PermutedOnce

end ServiceContract
