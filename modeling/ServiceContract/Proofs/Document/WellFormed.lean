import ServiceContract.Proofs.Document.Part

/-!
# Documents as they are read

A document is *well-formed* if an address stands for one part of it, and the keys of each map are
different from each other. All documents that are read are well-formed. Here that is shown for the
documents of values in which the keys of each map are different from each other: an address is the
way from the root to the part.

## Main definitions

* `Document.WellFormed`.
* `Document.Placed`: a property that tells the parts of a document by their addresses.
* `Value.isKeyed`: whether the keys of each map in a value are different from each other.
* `Value.At`: the value at the end of a way.

## Main results

* `Document.wellFormed_of_placed`: documents whose parts are told by their addresses.
* `Document.wellFormed_ofValue`: documents of values.
-/

namespace ServiceContract

/-! ### Well-formed documents -/

namespace Document

/-- Documents as they are read: an address stands for one part, and the keys of a map are different
from each other. -/
structure WellFormed (doc : Document) : Prop extends doc.Addressed where
  keys : ∀ {a es}, doc.Part (.map a es) → (es.map Prod.fst).Nodup

/-- The parts of a document that are neither blank nor keys have the property `V`, which no two
nodes with one address have. -/
structure Placed (doc : Document) (V : Node → Prop) : Prop where
  root : doc.root.IsBlank ∨ V doc.root
  item : ∀ {a ns n}, V (.list a ns) → n ∈ ns → n.opened.IsBlank ∨ V n.opened
  entry : ∀ {a es e}, V (.map a es) → e ∈ es → e.2.opened.IsBlank ∨ V e.2.opened
  place : ∀ {n}, V n → (∃ steps, n.address = .path steps) ∨ ∃ v, n.address = .number v
  unique : ∀ {n m}, V n → V m → n.address = m.address → n = m
  keys : ∀ {a es}, V (.map a es) → (es.map Prod.fst).Nodup

variable {doc : Document} {V : Node → Prop} {n : Node}

/-- A part is blank, a key, or has its place. -/
theorem Placed.of_part (h : doc.Placed V) (hn : doc.Part n) :
    n.IsBlank ∨ (∃ a k, n = .leaf (Address.ofKey k a) k) ∨ V n := by
  induction hn with
  | root => exact h.root.imp_right .inr
  | blank hn => exact .inl hn
  | key a k => exact .inr (.inl ⟨a, k, rfl⟩)
  | item _ hn ih =>
    rcases ih with hblank | ⟨_, _, ⟨⟩⟩ | hv
    · rcases hblank with hn | hn | ⟨_, hn⟩ <;> cases hn
    · exact (h.item hv hn).imp_right .inr
  | entry _ he ih =>
    rcases ih with hblank | ⟨_, _, ⟨⟩⟩ | hv
    · rcases hblank with hn | hn | ⟨_, hn⟩
      · cases hn
      · cases hn
        cases he
      · cases hn
    · exact (h.entry hv he).imp_right .inr

theorem address_of_isBlank (h : n.IsBlank) : n.address = .nowhere := by
  rcases h with rfl | rfl | ⟨c, rfl⟩
  · rfl
  · rfl
  · rfl

/-- The addresses of keys are of a kind of their own. -/
theorem Placed.address_ne_ofKey (h : doc.Placed V) (hn : V n) (k : Scalar) (a : Address) :
    n.address ≠ Address.ofKey k a := by
  intro heq
  rcases h.place hn with ⟨steps, hplace⟩ | ⟨v, hplace⟩
  · rw [hplace] at heq
    cases a <;> cases heq
  · rw [hplace] at heq
    cases a <;> cases heq

/-- A document whose parts are told by their addresses is well-formed. -/
theorem wellFormed_of_placed (h : doc.Placed V) : doc.WellFormed where
  unique {n m} hn hm heq hne := by
    rcases h.of_part hn with hn | ⟨a, k, rfl⟩ | hn
    · exact absurd (address_of_isBlank hn) hne
    · rcases h.of_part hm with hm | ⟨a', k', rfl⟩ | hm
      · exact absurd (heq.trans (address_of_isBlank hm)) hne
      · have hkey : k = k' := by
          cases a <;> cases a' <;> cases heq <;> rfl
        subst hkey
        exact congrArg (Node.leaf · k) heq
      · exact absurd heq.symm (h.address_ne_ofKey hm k a)
    · rcases h.of_part hm with hm | ⟨a', k', rfl⟩ | hm
      · exact absurd (heq.trans (address_of_isBlank hm)) hne
      · exact absurd heq (h.address_ne_ofKey hn k' a')
      · exact h.unique hn hm heq
  nowhere {n} hn heq := by
    rcases h.of_part hn with hn | ⟨a, k, rfl⟩ | hn
    · exact hn
    · cases a <;> cases heq
    · rcases h.place hn with ⟨steps, hplace⟩ | ⟨v, hplace⟩
      · cases heq.symm.trans hplace
      · cases heq.symm.trans hplace
  keys {a es} hn := by
    rcases h.of_part hn with hn | ⟨_, _, ⟨⟩⟩ | hn
    · rcases hn with hn | hn | ⟨_, hn⟩
      · cases hn
      · cases hn
        exact List.nodup_nil
      · cases hn
    · exact h.keys hn

end Document

/-! ### Values -/

namespace Value

mutual

/-- Whether the keys of each map in the value are different from each other. -/
def isKeyed : Value → Bool
  | .list items => areKeyed items
  | .map entries => decide (entries.map Prod.fst).Nodup && entriesKeyed entries
  | _ => true

/-- Whether that holds for all items. -/
def areKeyed : List Value → Bool
  | [] => true
  | v :: vs => isKeyed v && areKeyed vs

/-- Whether that holds for the values of all entries. -/
def entriesKeyed : List (Scalar × Value) → Bool
  | [] => true
  | (_, v) :: es => isKeyed v && entriesKeyed es

end

theorem areKeyed_iff {vs : List Value} : areKeyed vs = true ↔ ∀ v ∈ vs, v.isKeyed = true := by
  induction vs with
  | nil => simp [areKeyed]
  | cons v vs ih => simp [areKeyed, ih]

theorem entriesKeyed_iff {es : List (Scalar × Value)} :
    entriesKeyed es = true ↔ ∀ e ∈ es, e.2.isKeyed = true := by
  induction es with
  | nil => simp [entriesKeyed]
  | cons e es ih => simp [entriesKeyed, ih]

/-- The value of an entry has different keys in each map too, and no entry before has the same
key. -/
theorem isKeyed_entry {before after : List (Scalar × Value)} {k : Scalar} {w : Value}
    (h : (map (before ++ (k, w) :: after)).isKeyed = true) :
    (∀ e ∈ before, e.1 ≠ k) ∧ w.isKeyed = true := by
  rw [isKeyed, Bool.and_eq_true, decide_eq_true_eq, entriesKeyed_iff, List.map_append,
    List.nodup_append] at h
  obtain ⟨⟨-, -, hkeys⟩, hvalues⟩ := h
  constructor
  · exact fun e he => hkeys e.1 (List.mem_map_of_mem he) k List.mem_cons_self
  · exact hvalues _ (List.mem_append_right before List.mem_cons_self)

/-- The value `w` stands at the end of a way, read up to the root `v`. -/
inductive At (v : Value) : List Step → Value → Prop
  | root : At v [] v
  | item {steps : List Step} {items : List Value} {i : Nat} {w : Value}
    (h : At v steps (.list items)) (hw : items[i]? = some w) : At v (.index i :: steps) w
  | entry {steps : List Step} {es : List (Scalar × Value)} {k : Scalar} {w : Value}
    (h : At v steps (.map es)) (hw : (k, w) ∈ es) : At v (.key k :: steps) w

theorem At.isKeyed {v w : Value} {steps : List Step} (h : v.At steps w) (hv : v.isKeyed = true) :
    w.isKeyed = true := by
  induction h with
  | root => exact hv
  | item _ hw ih =>
    rw [Value.isKeyed, areKeyed_iff] at ih
    exact ih _ (List.mem_of_getElem? hw)
  | entry _ hw ih =>
    rw [Value.isKeyed, Bool.and_eq_true, entriesKeyed_iff] at ih
    exact ih.2 _ hw

/-- One value stands at the end of a way. -/
theorem At.unique {v w w' : Value} {steps : List Step} (hv : v.isKeyed = true) (h : v.At steps w)
    (h' : v.At steps w') : w = w' := by
  induction h generalizing w' with
  | root =>
    cases h'
    rfl
  | item _ hw ih =>
    cases h' with
    | item h' hw' =>
      cases ih h'
      exact Option.some.inj (hw.symm.trans hw')
  | @entry _ es k w h hw ih =>
    cases h' with
    | entry h' hw' =>
      cases ih h'
      have hkeyed := h.isKeyed hv
      rw [Value.isKeyed, Bool.and_eq_true, decide_eq_true_eq] at hkeyed
      exact congrArg Prod.snd (List.inj_on_of_nodup_map hkeyed.1 hw hw' rfl)

end Value

/-! ### Documents -/

namespace Node

theorem getElem?_ofItems (steps : List Step) (i : Nat) (vs : List Value) (j : Nat) :
    (ofItems steps i vs)[j]? = vs[j]?.map fun w => ofValue (.index (i + j) :: steps) w := by
  induction vs generalizing i j with
  | nil => rfl
  | cons v vs ih =>
    cases j with
    | zero => rfl
    | succ j =>
      rw [ofItems, List.getElem?_cons_succ, ih, Nat.add_right_comm, ← Nat.add_assoc]
      rfl

theorem mem_ofItems {steps : List Step} {i : Nat} {vs : List Value} {n : Node}
    (h : n ∈ ofItems steps i vs) :
    ∃ j w, vs[j]? = some w ∧ n = ofValue (.index (i + j) :: steps) w := by
  obtain ⟨j, hj⟩ := List.mem_iff_getElem?.mp h
  rw [getElem?_ofItems, Option.map_eq_some_iff] at hj
  obtain ⟨w, hw, rfl⟩ := hj
  exact ⟨j, w, hw, rfl⟩

theorem ofEntries_eq_map (steps : List Step) (es : List (Scalar × Value)) :
    ofEntries steps es = es.map fun e => (e.1, ofValue (.key e.1 :: steps) e.2) := by
  induction es with
  | nil => rfl
  | cons e es ih => rw [ofEntries, ih, List.map_cons]

theorem opened_ofValue (steps : List Step) (v : Value) :
    (ofValue steps v).opened = ofValue steps v := by
  cases v <;> rfl

theorem address_ofValue (steps : List Step) (v : Value) :
    (ofValue steps v).address = .path steps := by
  cases v <;> rfl

end Node

namespace Document

/-- The document of a value in which the keys of each map are different from each other. -/
theorem wellFormed_ofValue {v : Value} (h : v.isKeyed = true) : (ofValue v).WellFormed := by
  refine wellFormed_of_placed (V := fun n => ∃ steps w, v.At steps w ∧ n = .ofValue steps w) ?_
  refine
    { root := .inr ⟨[], v, .root, rfl⟩
      item := ?_
      entry := ?_
      place := ?_
      unique := ?_
      keys := ?_ }
  · rintro a ns n ⟨steps, w, hw, heq⟩ hn
    cases w with
    | list items =>
      cases heq
      obtain ⟨j, w, hitem, rfl⟩ := Node.mem_ofItems hn
      rw [Nat.zero_add, Node.opened_ofValue]
      exact .inr ⟨_, w, .item hw hitem, rfl⟩
    | _ => cases heq
  · rintro a es e ⟨steps, w, hw, heq⟩ he
    cases w with
    | map es =>
      cases heq
      rw [Node.ofEntries_eq_map] at he
      obtain ⟨⟨k, w⟩, hentry, rfl⟩ := List.mem_map.mp he
      rw [Node.opened_ofValue]
      exact .inr ⟨_, w, .entry hw hentry, rfl⟩
    | _ => cases heq
  · rintro n ⟨steps, w, -, rfl⟩
    exact .inl ⟨steps, Node.address_ofValue steps w⟩
  · rintro n m ⟨steps, w, hw, rfl⟩ ⟨steps', w', hw', rfl⟩ heq
    rw [Node.address_ofValue, Node.address_ofValue] at heq
    cases heq
    rw [hw.unique h hw']
  · rintro a es ⟨steps, w, hw, heq⟩
    cases w with
    | map es =>
      cases heq
      have hkeyed := hw.isKeyed h
      rw [Value.isKeyed, Bool.and_eq_true, decide_eq_true_eq] at hkeyed
      rw [Node.ofEntries_eq_map, List.map_map]
      exact hkeyed.1
    | _ => cases heq

end Document

end ServiceContract
