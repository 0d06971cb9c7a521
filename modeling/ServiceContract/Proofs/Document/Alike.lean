import Mathlib.Data.List.Nodup
import ServiceContract.Document.Reference
import ServiceContract.Proofs.Session.Run

/-!
# Documents with entries in another order

Two nodes are *alike* if they are the same, or maps with the same entries in another order. Nodes
that are alike cannot be told apart by the entries that they have. Two documents are *similar* if
their references lead to nodes that are alike; whatever is read by following references is alike
then.

## Main definitions

* `Matches`: results that are the same fault or related answers.
* `Node.Alike`: nodes that differ at most in the order of their own entries.
* `Document.Similar`: documents whose references lead to nodes that are alike.

## Main results

* `Node.Alike.has`, `Node.Alike.get?`: nodes that are alike have the same entries.
* `Document.Similar.follow`: chains of references in similar documents.
-/

namespace ServiceContract

/-! ### Results that match -/

/-- The two results are the same fault, or answers that are related. -/
inductive Matches {α : Type} (R : α → α → Prop) : Except Fault α → Except Fault α → Prop
  | ok {a b : α} (h : R a b) : Matches R (.ok a) (.ok b)
  | error (fault : Fault) : Matches R (.error fault) (.error fault)

namespace Matches

variable {α β : Type} {R : α → α → Prop} {S : β → β → Prop} {x y : Except Fault α}

theorem refl (hR : ∀ a, R a a) (x : Except Fault α) : Matches R x x := by
  cases x with
  | error fault => exact .error fault
  | ok a => exact .ok (hR a)

theorem bind {k l : α → Except Fault β} (h : Matches R x y)
    (hk : ∀ a b, R a b → Matches S (k a) (l b)) : Matches S (x >>= k) (y >>= l) := by
  cases h with
  | error fault => exact .error fault
  | ok h => exact hk _ _ h

theorem bind_right {k l : α → Except Fault β} (hk : ∀ a, Matches S (k a) (l a)) :
    Matches S (x >>= k) (x >>= l) := by
  cases x with
  | error fault => exact .error fault
  | ok a => exact hk a

theorem bind_eq {k l : α → Except Fault β} (h : Matches R x y) (hk : ∀ a b, R a b → k a = l b) :
    x >>= k = y >>= l := by
  cases h with
  | error fault => rfl
  | ok h => exact hk _ _ h

theorem eq_ok {a : α} (h : Matches R x y) (hx : x = .ok a) : ∃ b, y = .ok b ∧ R a b := by
  subst hx
  cases h with
  | ok h => exact ⟨_, rfl, h⟩

/-- Steps that begin with results that match are the same if they go on alike. -/
theorem lift_bind_eq {k l : α → Build β} (h : Matches R x y) (hk : ∀ a b, R a b → k a = l b) :
    (liftM x : Build α) >>= k = (liftM y : Build α) >>= l := by
  cases h with
  | error fault => rfl
  | ok h => exact hk _ _ h

end Matches

/-! ### Nodes -/

namespace Node

/-- The nodes are the same, or maps with the same entries in another order. -/
inductive Alike : Node → Node → Prop
  | refl (n : Node) : Alike n n
  | reorder (a : Address) {es es' : List (Scalar × Node)} (h : es.Perm es')
    (hk : (es.map Prod.fst).Nodup) : Alike (.map a es) (.map a es')

/-- The entry with a key does not depend on the order of the entries. -/
theorem lookup?_of_perm {es es' : List (Scalar × Node)} (h : es.Perm es')
    (hk : (es.map Prod.fst).Nodup) (key : String) : lookup? key es = lookup? key es' := by
  rw [lookup?, lookup?]
  congr 1
  induction h with
  | nil => rfl
  | cons e _ ih =>
    rw [List.find?_cons, List.find?_cons, ih (List.nodup_cons.mp hk).2]
  | swap e f es =>
    rw [List.find?_cons, List.find?_cons, List.find?_cons, List.find?_cons]
    -- The two entries in front have different keys, so at most one of them is found.
    have hne : f.1 ≠ e.1 := fun heq =>
      (List.nodup_cons.mp hk).1 (heq ▸ List.mem_cons_self)
    by_cases hf : f.1 = .text key
    · have he : (e.1 == .text key) = false := beq_false_of_ne fun he => hne (hf.trans he.symm)
      rw [he]
    · rw [beq_false_of_ne hf]
  | trans h _ ih ih' =>
    exact (ih hk).trans (ih' ((h.map Prod.fst).nodup_iff.mp hk))

namespace Alike

variable {n m : Node} (h : Alike n m)
include h

theorem address : n.address = m.address := by
  cases h <;> rfl

theorem isNull : n.isNull = m.isNull := by
  cases h <;> rfl

theorem has (key : String) : n.has key = m.has key := by
  cases h with
  | refl => rfl
  | reorder a h hk => rw [Node.has, Node.has, lookup?_of_perm h hk]

theorem hasAny (keys : List String) : n.hasAny keys = m.hasAny keys := by
  induction keys with
  | nil => rfl
  | cons key keys ih => rw [Node.hasAny, Node.hasAny, h.has, ih]

theorem get? (key : String) : n.get? key = m.get? key := by
  cases h with
  | refl => rfl
  | reorder a h hk => rw [Node.get?, Node.get?, lookup?_of_perm h hk]

theorem get (key : String) : n.get key = m.get key := by
  rw [Node.get, Node.get, h.get?]

theorem enter? (key : String) : n.enter? key = m.enter? key := by
  cases h with
  | refl => rfl
  | reorder a h hk => rw [Node.enter?, Node.enter?, lookup?_of_perm h hk]

end Alike

end Node

/-! ### References -/

namespace Document

open Node

theorem walk_alike {n m : Node} (h : Alike n m) (ref : String) (segments : List (List Char)) :
    Matches Alike (walk ref n segments) (walk ref m segments) := by
  cases segments with
  | nil => exact .ok h
  | cons segment segments =>
    rw [walk, walk, h.enter?]
    exact .refl .refl _

/-- The references of the two documents lead to nodes that are alike. -/
structure Similar (doc doc' : Document) : Prop where
  size : doc.size = doc'.size
  resolve : ∀ ref, Matches Alike (doc.resolve ref) (doc'.resolve ref)

namespace Similar

variable {doc doc' : Document} (h : doc.Similar doc')
include h

theorem followFrom (fuel : Nat) (seen : List String) {n m : Node} (hn : Alike n m) :
    Matches Alike (doc.followFrom fuel seen n) (doc'.followFrom fuel seen m) := by
  induction fuel generalizing seen n m with
  | zero => exact .error _
  | succ fuel ih =>
    rw [Document.followFrom, Document.followFrom, hn.has, hn.get]
    refine .bind_right fun isReference => ?_
    split_ifs
    · refine .bind_right fun value => .bind_right fun ref => ?_
      split_ifs
      · exact .ok hn
      · exact .bind (h.resolve ref) fun a b hab => ih (ref :: seen) hab
    · exact .ok hn

/-- Chains of references end in nodes that are alike. -/
theorem follow (n : Node) : Matches Alike (doc.follow n) (doc'.follow n) := by
  rw [Document.follow, Document.follow, h.size]
  exact h.followFrom _ _ (.refl n)

end Similar

end Document

end ServiceContract
