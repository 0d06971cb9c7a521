import ServiceContract.Document.Reference
import ServiceContract.Proofs.Session.Run

/-!
# Parts of documents

What is read from a document is a part of it, a key of one of its maps, or a *blank* node: one that
stands for an absent value, or a character of a text. A property of nodes that goes from lists and
maps to what they hold holds for all that is read, if it holds at the root.

## Main definitions

* `Node.IsBlank`: the nodes that stand nowhere in a document.
* `Node.Downward`: a property that goes down, and holds for keys and blank nodes.
* `Document.Closed`: such a property that also goes along references.
* `Document.Hereditary`: such a property that the root has.
* `Document.Part`: the parts of a document.
* `Document.Addressed`: parts at one address are the same.

## Main results

* `Document.Hereditary.of_root`: a property that goes down from the root goes along references.
* `Document.Hereditary.resolve`, `Document.Closed.follow`: what references lead to.
* `Document.part_hereditary`: the parts of a document make up a hereditary property.
-/

namespace ServiceContract

/-- Null and the empty map, which stand for absent values, and the characters of texts. -/
def Node.IsBlank (n : Node) : Prop :=
  n = null ∨ n = empty ∨ ∃ code, n = .leaf .nowhere (.text (String.ofList (Text.ofCodePoint code)))

/-- A property of nodes that goes from lists and maps to what they hold. -/
structure Node.Downward (P : Node → Prop) : Prop where
  blank : ∀ {n}, n.IsBlank → P n
  key : ∀ a k, P (.leaf (Address.ofKey k a) k)
  item : ∀ {a ns n}, P (.list a ns) → n ∈ ns → P n.opened
  entry : ∀ {a es e}, P (.map a es) → e ∈ es → P e.2.opened

namespace Document

/-- A property of nodes that goes from lists and maps to what they hold, and along references. -/
structure Closed (doc : Document) (P : Node → Prop) : Prop extends Node.Downward P where
  refer : ∀ {n value ref m}, P n → n.get "$ref" = .ok value → value.asText = .ok ref →
    doc.resolve ref = .ok m → P m

/-- A property of nodes that the root has and that goes from lists and maps to what they hold. -/
structure Hereditary (doc : Document) (P : Node → Prop) : Prop extends Closed doc P where
  root : P doc.root

/-- The parts of a document, the keys of its maps, and blank nodes. -/
inductive Part (doc : Document) : Node → Prop
  | root : Part doc doc.root
  | blank {n : Node} (h : n.IsBlank) : Part doc n
  | key (a : Address) (k : Scalar) : Part doc (.leaf (Address.ofKey k a) k)
  | item {a : Address} {ns : List Node} {n : Node} (h : Part doc (.list a ns)) (hn : n ∈ ns) :
    Part doc n.opened
  | entry {a : Address} {es : List (Scalar × Node)} {e : Scalar × Node} (h : Part doc (.map a es))
    (he : e ∈ es) : Part doc e.2.opened

/-- Two parts that stand at one address are the same, and only blank nodes stand nowhere. -/
structure Addressed (doc : Document) : Prop where
  unique : ∀ {n m}, doc.Part n → doc.Part m → n.address = m.address → n.address ≠ .nowhere → n = m
  nowhere : ∀ {n}, doc.Part n → n.address = .nowhere → n.IsBlank

end Document

namespace Node.Downward

variable {P : Node → Prop} (hP : Downward P) {n m : Node} {key : String}
include hP

/-! ### Reading a node -/

theorem null : P .null := hP.blank (.inl rfl)

theorem empty : P .empty := hP.blank (.inr (.inl rfl))

theorem lookup? {a : Address} {es : List (Scalar × Node)} (hn : P (.map a es))
    (h : Node.lookup? key es = some m) : P m := by
  obtain ⟨e, he, rfl⟩ := Option.map_eq_some_iff.mp h
  exact hP.entry hn (List.mem_of_find?_eq_some he)

theorem get? (hn : P n) (h : n.get? key = .ok (some m)) : P m := by
  cases n with
  | map a es => exact hP.lookup? hn (Except.ok.inj h)
  | _ => cases h

theorem get (hn : P n) (h : n.get key = .ok m) : P m := by
  obtain ⟨found, hfound, h⟩ := except_bind_eq_ok.mp h
  cases found with
  | none =>
    cases h
    exact hP.null
  | some found =>
    cases h
    exact hP.get? hn hfound

theorem items {ns : List Node} (hn : P n) (h : n.items = .ok ns) (hm : m ∈ ns) : P m := by
  cases n with
  | leaf a v =>
    cases v with
    | text s =>
      cases h
      obtain ⟨c, -, rfl⟩ := List.mem_map.mp hm
      exact hP.blank (.inr (.inr ⟨c, rfl⟩))
    | _ => cases h
  | list a items =>
    cases h
    obtain ⟨item, hitem, rfl⟩ := List.mem_map.mp hm
    exact hP.item hn hitem
  | map a es =>
    cases h
    obtain ⟨e, -, rfl⟩ := List.mem_map.mp hm
    exact hP.key a e.1
  | link a rings => cases h

theorem entries {es : List (Scalar × Node)} {e : Scalar × Node} (hn : P n) (h : n.entries = .ok es)
    (he : e ∈ es) : P e.2 := by
  cases n with
  | map a es =>
    cases h
    obtain ⟨entry, hentry, rfl⟩ := List.mem_map.mp he
    exact hP.entry hn hentry
  | _ => cases h

theorem orEmpty (hn : P n) : P n.orEmpty := by
  rw [Node.orEmpty]
  split_ifs
  · exact hn
  · exact hP.empty

theorem itemsIfAny {ns : List Node} (hn : P n) (h : n.itemsIfAny = .ok ns) (hm : m ∈ ns) : P m := by
  rw [Node.itemsIfAny] at h
  split_ifs at h
  · exact hP.items hn h hm
  · cases h
    cases hm

theorem entriesIfAny {es : List (Scalar × Node)} {e : Scalar × Node} (hn : P n)
    (h : n.entriesIfAny = .ok es) (he : e ∈ es) : P e.2 := by
  rw [Node.entriesIfAny] at h
  split_ifs at h
  · exact hP.entries hn h he
  · cases h
    cases he

/-! ### Pointers -/

theorem enter? (hn : P n) (h : n.enter? key = .ok (some m)) : P m := by
  cases n with
  | map a es => exact hP.lookup? hn (Except.ok.inj h)
  | list a items =>
    obtain ⟨position, -, h⟩ := except_bind_eq_ok.mp h
    obtain ⟨i, -, hm⟩ := Option.bind_eq_some_iff.mp (Except.ok.inj h)
    obtain ⟨item, hitem, rfl⟩ := Option.map_eq_some_iff.mp hm
    exact hP.item hn (List.mem_of_getElem? hitem)
  | leaf a v => cases h
  | link a rings => cases h

theorem walk {ref : String} {segments : List (List Char)} (hn : P n)
    (h : Document.walk ref n segments = .ok m) : P m := by
  induction segments generalizing n with
  | nil =>
    cases h
    exact hn
  | cons segment segments ih =>
    obtain ⟨child, hchild, h⟩ := except_bind_eq_ok.mp h
    cases child with
    | none => cases h
    | some child => exact ih (hP.enter? hn hchild) h

/-- What a reference leads to has the property if the root has it. -/
theorem resolve {doc : Document} {ref : String} (hroot : P doc.root) (h : doc.resolve ref = .ok m) :
    P m := by
  unfold Document.resolve at h
  split at h
  · obtain ⟨target, htarget, h⟩ := except_bind_eq_ok.mp h
    split at h
    · cases h
      exact hP.walk hroot htarget
    · cases h
  · cases h

end Node.Downward

namespace Document

variable {doc : Document} {P : Node → Prop} {n m : Node}

/-! ### References -/

/-- A property that goes down from the root goes along references. -/
theorem Hereditary.of_root (hP : Node.Downward P) (hroot : P doc.root) : doc.Hereditary P where
  toDownward := hP
  root := hroot
  refer _ _ _ h := hP.resolve hroot h

/-- What a reference leads to. -/
theorem Hereditary.resolve (hP : doc.Hereditary P) {ref : String} (h : doc.resolve ref = .ok m) :
    P m :=
  hP.toDownward.resolve hP.root h

theorem part_hereditary (doc : Document) : doc.Hereditary doc.Part :=
  .of_root { blank := .blank, key := .key, item := .item, entry := .entry } .root

theorem true_hereditary (doc : Document) : doc.Hereditary fun _ => True :=
  .of_root
    { blank := fun _ => trivial
      key := fun _ _ => trivial
      item := fun _ _ => trivial
      entry := fun _ _ => trivial } trivial

namespace Closed

variable (hP : doc.Closed P)
include hP

theorem followFrom {fuel : Nat} {seen : List String} (hn : P n)
    (h : doc.followFrom fuel seen n = .ok m) : P m := by
  induction fuel generalizing seen n with
  | zero => cases h
  | succ fuel ih =>
    obtain ⟨isReference, -, h⟩ := except_bind_eq_ok.mp h
    split_ifs at h
    · obtain ⟨value, hvalue, h⟩ := except_bind_eq_ok.mp h
      obtain ⟨ref, href, h⟩ := except_bind_eq_ok.mp h
      split_ifs at h
      · cases h
        exact hn
      · obtain ⟨target, htarget, h⟩ := except_bind_eq_ok.mp h
        exact ih (hP.refer hn hvalue href htarget) h
    · cases h
      exact hn

/-- What a chain of references leads to. -/
theorem follow (hn : P n) (h : doc.follow n = .ok m) : P m :=
  hP.followFrom hn h

end Closed

end Document

end ServiceContract
