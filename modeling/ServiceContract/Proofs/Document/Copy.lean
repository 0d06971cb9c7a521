import Mathlib.Data.List.Forall2
import ServiceContract.Proofs.Document.PathItem
import ServiceContract.Proofs.Document.Role

/-!
# Copies of nodes

A node is a copy of another one if the two unfold to the same tree: only the addresses in it may
differ. A link may stand inside itself, so there is no induction on copies. They are related by some
relation that holds between nodes only where their tops are the same, and where it holds again
between what the two nodes hold. So whatever is read from a node step by step is read from its
copies as well. A value gives copies wherever it stands.

## Main definitions

* `Node.SameTop`: nodes whose tops are the same and which hold related nodes.
* `Node.IsCopy`: nodes that are copies of one another.

## Main results

* `Node.isCopy_ofValue`: a value at two places.
* `Node.IsCopy.get?`, `Node.IsCopy.has`, `Node.IsCopy.statedType`: what is read from copies.
-/

namespace ServiceContract.Node

variable {R S : Node → Node → Prop} {n m : Node} {key : String}

/-- The nodes are the same on top, but for their addresses, and what they hold is related by `R`. -/
inductive SameTop (R : Node → Node → Prop) : Node → Node → Prop
  | leaf (a b : Address) (v : Scalar) : SameTop R (.leaf a v) (.leaf b v)
  | list (a b : Address) {ns ms : List Node}
    (h : List.Forall₂ (fun n m => R n.opened m.opened) ns ms) :
    SameTop R (.list a ns) (.list b ms)
  | map (a b : Address) {es fs : List (Scalar × Node)}
    (h : List.Forall₂ (SameKey fun n m => R n.opened m.opened) es fs) :
    SameTop R (.map a es) (.map b fs)

/-- The nodes unfold to the same tree, but for the addresses in it. -/
def IsCopy (n m : Node) : Prop :=
  ∃ R : Node → Node → Prop, (∀ n m, R n m → SameTop R n m) ∧ R n m

theorem SameTop.mono (hRS : ∀ n m, R n m → S n m) (h : SameTop R n m) : SameTop S n m := by
  cases h with
  | leaf a b v => exact .leaf a b v
  | list a b h => exact .list a b (h.imp fun n m => hRS _ _)
  | map a b h =>
    refine .map a b (h.imp fun e f hef => ?_)
    obtain ⟨key, hef⟩ := hef
    exact .mk key (hRS _ _ hef)

theorem IsCopy.top (h : IsCopy n m) : SameTop IsCopy n m := by
  obtain ⟨R, hR, h⟩ := h
  exact (hR n m h).mono fun n m hnm => ⟨R, hR, hnm⟩

theorem isCopy_leaf (a b : Address) (v : Scalar) : IsCopy (.leaf a v) (.leaf b v) := by
  refine ⟨fun n m => n = .leaf a v ∧ m = .leaf b v, ?_, rfl, rfl⟩
  rintro _ _ ⟨rfl, rfl⟩
  exact .leaf a b v

/-! ### Values -/

section Values

variable (hR : ∀ steps steps' w, R (ofValue steps w) (ofValue steps' w)) (steps steps' : List Step)
include hR

theorem forall₂_ofItems (i j : Nat) (vs : List Value) :
    List.Forall₂ (fun n m => R n.opened m.opened) (ofItems steps i vs) (ofItems steps' j vs) := by
  induction vs generalizing i j with
  | nil => exact .nil
  | cons v vs ih =>
    rw [ofItems, ofItems]
    refine .cons ?_ (ih (i + 1) (j + 1))
    rw [opened_ofValue, opened_ofValue]
    exact hR _ _ v

theorem forall₂_ofEntries (es : List (Scalar × Value)) :
    List.Forall₂ (SameKey fun n m => R n.opened m.opened) (ofEntries steps es)
      (ofEntries steps' es) := by
  induction es with
  | nil => exact .nil
  | cons e es ih =>
    obtain ⟨key, v⟩ := e
    rw [ofEntries, ofEntries]
    refine .cons (.mk key ?_) ih
    rw [opened_ofValue, opened_ofValue]
    exact hR _ _ v

end Values

/-- The nodes of a value at one place are copies of those at any other place. -/
theorem isCopy_ofValue (steps steps' : List Step) (v : Value) :
    IsCopy (ofValue steps v) (ofValue steps' v) := by
  let R (n m : Node) : Prop := ∃ steps steps' v, n = ofValue steps v ∧ m = ofValue steps' v
  have hR (steps steps' : List Step) (w : Value) : R (ofValue steps w) (ofValue steps' w) :=
    ⟨steps, steps', w, rfl, rfl⟩
  refine ⟨R, ?_, hR steps steps' v⟩
  rintro _ _ ⟨steps, steps', v, rfl, rfl⟩
  cases v with
  | scalar v => exact .leaf _ _ v
  | list vs => exact .list _ _ (forall₂_ofItems hR steps steps' 0 0 vs)
  | map es => exact .map _ _ (forall₂_ofEntries hR steps steps' es)
  | again _ => exact .leaf _ _ .null

/-! ### Reading copies -/

/-- Entries with the same keys, one by one, have related values at each key. -/
theorem rel_lookup? {es fs : List (Scalar × Node)}
    (h : List.Forall₂ (SameKey fun n m => R n.opened m.opened) es fs) (key : String) :
    Option.Rel R (lookup? key es) (lookup? key fs) := by
  rw [lookup?, lookup?]
  induction h with
  | nil => exact .none
  | cons he _ ih =>
    obtain ⟨k, he⟩ := he
    rw [List.find?_cons, List.find?_cons]
    cases k == .text key with
    | true => exact .some he
    | false => exact ih

namespace IsCopy

variable (h : IsCopy n m)
include h

theorem isNull : n.isNull = m.isNull := by
  cases h.top with
  | leaf a b v => cases v <;> rfl
  | _ => rfl

theorem isText (text : String) : n.isText text = m.isText text := by
  cases h.top with
  | leaf a b v => cases v <;> rfl
  | _ => rfl

theorem isList : n.isList = m.isList := by
  cases h.top <;> rfl

theorem isKeyLike : n.isKeyLike = m.isKeyLike := by
  cases h.top <;> rfl

theorem isTruthy : n.isTruthy = m.isTruthy := by
  cases h.top with
  | leaf => rfl
  | list a b hitems => cases hitems <;> rfl
  | map a b hentries => cases hentries <;> rfl

theorem asText : n.asText = m.asText := by
  cases h.top with
  | leaf a b v => cases v <;> rfl
  | _ => rfl

/-- The entries of copies are copies. -/
theorem get? (key : String) : Matches (Option.Rel IsCopy) (n.get? key) (m.get? key) := by
  cases h.top with
  | leaf => exact .error _
  | list => exact .error _
  | map a b hentries => exact .ok (rel_lookup? hentries key)

theorem get (key : String) : Matches IsCopy (n.get key) (m.get key) := by
  refine (h.get? key).bind fun found found' hfound => .ok ?_
  cases hfound with
  | none => exact isCopy_leaf _ _ .null
  | some hfound => exact hfound

/-- Copies of a map have the same keys. -/
theorem has {key' : String} {value : Node} (hmap : n.get key' = .ok value) (key : String) :
    n.has key = m.has key := by
  cases h.top with
  | leaf => cases hmap
  | list => cases hmap
  | map a b hentries =>
    have hrel := rel_lookup? hentries key
    rw [Node.has, Node.has]
    generalize lookup? key _ = found at hrel ⊢
    generalize lookup? key _ = found' at hrel ⊢
    cases hrel <;> rfl

theorem get_eq_ok {value : Node} (hget : n.get key = .ok value) :
    ∃ value', m.get key = .ok value' ∧ IsCopy value value' :=
  (h.get key).eq_ok hget

/-- The type that a schema states is that of its copies, up to the label. -/
theorem statedType {label : String} {type : Node} (htype : n.statedType label = .ok type)
    (label' : String) :
    ∃ type', m.statedType label' = .ok type' ∧ IsCopy type type' := by
  obtain ⟨stated, hstated, htype⟩ := except_bind_eq_ok.mp htype
  obtain ⟨stated', hstated', hcopy⟩ := h.get_eq_ok hstated
  rw [Node.statedType, hstated', except_ok_bind, ← hcopy.isList]
  cases hcopy.top with
  | leaf => exact ⟨_, rfl, Except.ok.inj htype ▸ hcopy⟩
  | map => exact ⟨_, rfl, Except.ok.inj htype ▸ hcopy⟩
  | @list a b ns ms hitems =>
    have hitems : List.Forall₂ IsCopy (ns.map opened) (ms.map opened) := by
      rwa [List.forall₂_map_left_iff, List.forall₂_map_right_iff]
    have hfilter : List.Forall₂ IsCopy ((ns.map opened).filter fun t => !t.isText "null")
        ((ms.map opened).filter fun t => !t.isText "null") :=
      List.rel_filter (fun n m hnm => by simp only [hnm.isText]) hitems
    rw [Node.isList, Bool.not_true, if_neg Bool.false_ne_true, Node.items, except_ok_bind] at htype
    rw [Node.isList, Bool.not_true, if_neg Bool.false_ne_true, Node.items, except_ok_bind]
    generalize (ns.map opened).filter _ = types at hfilter htype
    generalize (ms.map opened).filter _ = types' at hfilter ⊢
    cases hfilter with
    | nil =>
      cases htype
      exact ⟨_, rfl, isCopy_leaf _ _ .null⟩
    | cons htop hrest =>
      cases hrest with
      | nil =>
        cases htype
        exact ⟨_, rfl, htop⟩
      | cons =>
        obtain ⟨text, -, htype⟩ := except_bind_eq_ok.mp htype
        cases htype

end IsCopy

end ServiceContract.Node
