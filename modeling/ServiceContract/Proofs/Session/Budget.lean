import Mathlib.Data.Finset.Card
import ServiceContract.Proofs.Document.Subnode
import ServiceContract.Proofs.Session.Growth

/-!
# Budgets of sessions

Resolution goes from a schema to one that need not be smaller in three cases only: a reference gets
a type, a reference gets in progress, or an inline schema gets a name. The references are texts of
the document and the inline schemas have addresses in it, so a session leaves room for finitely many
of these steps. This room is its *budget*.

## Main definitions

* `Document.texts`, `Document.addresses`: the texts in a document and the addresses of its nodes.
* `Session.budget`: how many references and inline schemas a session may still meet.

## Main results

* `Session.budget_le`: the budget is bounded by the size of the document.
* `Resolver.Grows.budget_le`: the budget never grows again.
* `Session.budget_lt_of_reference`, `Session.budget_lt_of_resolving`, `Session.budget_lt_of_inline`:
  the steps that use it up.
-/

namespace ServiceContract

/-! ### Texts and addresses -/

namespace Document

variable (doc : Document)

/-- The texts in a document; its references are among them. -/
def texts : Finset String :=
  (doc.root.subnodes.filterMap fun n => n.asText.toOption).toFinset

/-- The addresses of the nodes of a document. -/
def addresses : Finset Address :=
  (doc.root.subnodes.map Node.address).toFinset

variable {doc}

theorem mem_texts {n : Node} {text : String} (hn : n ∈ doc.root.subnodes)
    (h : n.asText = .ok text) :
    text ∈ doc.texts := by
  refine List.mem_toFinset.mpr (List.mem_filterMap.mpr ⟨n, hn, ?_⟩)
  rw [h]
  rfl

theorem mem_addresses {n : Node} (hn : n ∈ doc.root.subnodes) : n.address ∈ doc.addresses :=
  List.mem_toFinset.mpr (List.mem_map_of_mem hn)

namespace IsTree

variable (h : doc.IsTree)
include h

theorem card_texts_le : doc.texts.card ≤ doc.size := by
  have hnodes := Nat.le_trans doc.root.length_subnodes_le h.size
  exact Nat.le_trans (List.toFinset_card_le _) (Nat.le_trans (List.length_filterMap_le _ _) hnodes)

theorem card_addresses_le : doc.addresses.card ≤ doc.size := by
  have hnodes := Nat.le_trans doc.root.length_subnodes_le h.size
  exact Nat.le_trans (List.toFinset_card_le _) (Nat.le_trans (List.length_map _).le hnodes)

end IsTree

end Document

/-! ### Budgets -/

/-- How often a reference of the document may still get a type or get in progress, and how often an
inline schema may still get a name. -/
def Session.budget (s : Session) (doc : Document) : Nat :=
  (doc.texts.filter fun ref => s.references.lookup ref = none).card +
    (doc.texts.filter fun ref => ref ∉ s.resolving).card +
    (doc.addresses.filter fun a => s.inlines.lookup a = none).card

theorem card_filter_lt {α : Type} {S : Finset α} {p q : α → Prop} [DecidablePred p]
    [DecidablePred q] {a : α} (hpq : ∀ b, p b → q b) (ha : a ∈ S) (hq : q a) (hp : ¬ p a) :
    (S.filter p).card < (S.filter q).card := by
  have hsub : S.filter p ⊆ S.filter q := Finset.monotone_filter_right S fun b _ => hpq b
  refine Finset.card_lt_card ((Finset.ssubset_iff_of_subset hsub).mpr ⟨a, ?_, ?_⟩)
  · exact Finset.mem_filter.mpr ⟨ha, hq⟩
  · exact fun hmem => hp (Finset.mem_filter.mp hmem).2

theorem lookup_cons_eq_none {α β : Type} [DecidableEq α] {k k' : α} {v : β} {l : List (α × β)} :
    ((k', v) :: l).lookup k = none ↔ k ≠ k' ∧ l.lookup k = none := by
  rw [lookup_cons_ite]
  by_cases h : k = k' <;> simp [h]

/-- What is not found where all else is found is not found either. -/
theorem lookup_eq_none_of_forall {α β : Type} [DecidableEq α] {l l' : List (α × β)} {k : α}
    (h : ∀ {v}, l.lookup k = some v → l'.lookup k = some v) (hk : l'.lookup k = none) :
    l.lookup k = none := by
  by_contra hsome
  obtain ⟨v, hv⟩ := Option.ne_none_iff_exists'.mp hsome
  cases (h hv).symm.trans hk

namespace Session

variable {doc : Document} {s : Session} {ref : String}

theorem budget_le (h : doc.IsTree) (s : Session) : s.budget doc ≤ 3 * doc.size := by
  have htexts := h.card_texts_le
  have haddresses := h.card_addresses_le
  have hreferences := Finset.card_filter_le doc.texts fun ref => s.references.lookup ref = none
  have hresolving := Finset.card_filter_le doc.texts fun ref => ref ∉ s.resolving
  have hinlines := Finset.card_filter_le doc.addresses fun a => s.inlines.lookup a = none
  rw [budget]
  omega

/-- A reference that gets a type uses up some of the budget. -/
theorem budget_lt_of_reference (href : ref ∈ doc.texts) (h : s.references.lookup ref = none)
    (type : TypeExpr) (taken : List String) :
    budget { s with taken, references := (ref, type) :: s.references } doc < s.budget doc := by
  have hlt : (doc.texts.filter fun ref' => ((ref, type) :: s.references).lookup ref' = none).card <
      (doc.texts.filter fun ref' => s.references.lookup ref' = none).card :=
    card_filter_lt (fun _ hnone => (lookup_cons_eq_none.mp hnone).2) href h
      fun hnone => (lookup_cons_eq_none.mp hnone).1 rfl
  simp only [budget]
  omega

/-- A reference that gets in progress uses up some of the budget, as long as it is in progress. -/
theorem budget_lt_of_resolving (href : ref ∈ doc.texts) (h : ref ∉ s.resolving) :
    budget { s with resolving := ref :: s.resolving } doc < s.budget doc := by
  have hlt : (doc.texts.filter fun ref' => ref' ∉ ref :: s.resolving).card <
      (doc.texts.filter fun ref' => ref' ∉ s.resolving).card :=
    card_filter_lt (fun _ hnew hmem => hnew (List.mem_cons_of_mem _ hmem)) href h
      fun hnew => hnew List.mem_cons_self
  simp only [budget]
  omega

/-- An inline schema that gets a name uses up some of the budget. -/
theorem budget_lt_of_inline {a : Address} (ha : a ∈ doc.addresses) (h : s.inlines.lookup a = none)
    (name : String) (taken : List String) :
    budget { s with taken, inlines := (a, name) :: s.inlines } doc < s.budget doc := by
  have hlt : (doc.addresses.filter fun b => ((a, name) :: s.inlines).lookup b = none).card <
      (doc.addresses.filter fun b => s.inlines.lookup b = none).card :=
    card_filter_lt (fun _ hnone => (lookup_cons_eq_none.mp hnone).2) ha h
      fun hnone => (lookup_cons_eq_none.mp hnone).1 rfl
  simp only [budget]
  omega

end Session

/-- The budget never grows. -/
theorem Resolver.Grows.budget_le {r : Resolver} {s t : Session} (h : r.Grows s t) (doc : Document) :
    t.budget doc ≤ s.budget doc := by
  have hreferences : (doc.texts.filter fun ref => t.references.lookup ref = none).card ≤
      (doc.texts.filter fun ref => s.references.lookup ref = none).card :=
    Finset.card_le_card <| Finset.monotone_filter_right _ fun _ _ =>
      lookup_eq_none_of_forall h.references
  have hinlines : (doc.addresses.filter fun a => t.inlines.lookup a = none).card ≤
      (doc.addresses.filter fun a => s.inlines.lookup a = none).card :=
    Finset.card_le_card <| Finset.monotone_filter_right _ fun _ _ =>
      lookup_eq_none_of_forall h.inlines
  rw [Session.budget, Session.budget, h.resolving]
  omega

end ServiceContract
