import Mathlib.Logic.Relation
import ServiceContract.Proofs.Document.Subnode
import ServiceContract.Proofs.Schema.Fault
import ServiceContract.Proofs.Schema.Part

/-!
# Members of schemas without circles

The flattening of an `allOf` goes to its members, from a member that is a reference to what it
refers to, and from there to the members of that. It comes to an end if neither goes round in a
circle; a schema may be a member of itself, since it is not flattened again then.

## Main definitions

* `Document.Refers`, `Document.Includes`: where the flattening goes.
* `Document.AllOfAcyclic`: documents in which it does not go round in a circle.

## Main results

* `fuel_induction`: induction along a relation on finitely many things that leads nowhere twice.
* `Document.AllOfAcyclic.dereference_ends`, `Document.AllOfAcyclic.flatten_ends`.
-/

namespace ServiceContract

open Relation

/-! ### Induction along relations without circles -/

/-- What leads to finitely many things, or to things that lead nowhere, and from `a` never round in
a circle, ends within a bound: a statement about bounds holds for `a` if it holds for anything with
one step more than for all that it leads to. -/
theorem fuel_induction {α : Type} {E : α → α → Prop} {l : List α}
    (hl : ∀ {a b}, E a b → b ∈ l ∨ ∀ c, ¬ E b c) {P : Nat → α → Prop}
    (hstep : ∀ fuel a, (∀ b, E a b → P fuel b) → P (fuel + 1) a) {a : α}
    (hacyclic : ∀ b, ReflTransGen E a b → ¬ TransGen E b b) {fuel : Nat}
    (hfuel : l.length + 2 ≤ fuel) :
    P fuel a := by
  -- The things that have been met on the way to `b` are different from each other.
  have hpath (fuel : Nat) (met : List α) (b : α) (hnodup : met.Nodup) (hmet : ∀ c ∈ met, c ∈ l)
      (hto : ∀ c ∈ met, ReflTransGen E c b) (hb : ReflTransGen E a b)
      (hfuel : l.length + 2 ≤ fuel + met.length) : P fuel b := by
    have hlength : met.length ≤ l.length := (hnodup.subperm hmet).length_le
    induction fuel generalizing met b with
    | zero => omega
    | succ fuel ih =>
      refine hstep fuel b fun c hbc => ?_
      have hc : ReflTransGen E a c := hb.tail hbc
      rcases hl hbc with hmem | hsink
      · have hnew : c ∉ met := fun hmem => hacyclic c hc (TransGen.tail' (hto c hmem) hbc)
        have hnodup' : (c :: met).Nodup := List.nodup_cons.mpr ⟨hnew, hnodup⟩
        have hmet' : ∀ d ∈ c :: met, d ∈ l := List.forall_mem_cons.mpr ⟨hmem, hmet⟩
        refine ih (c :: met) c hnodup' hmet' ?_ hc ?_ (hnodup'.subperm hmet').length_le
        · exact List.forall_mem_cons.mpr ⟨.refl, fun d hd => (hto d hd).tail hbc⟩
        · rw [List.length_cons]
          omega
      · obtain ⟨fuel, rfl⟩ : ∃ more, fuel = more + 1 := Nat.exists_eq_succ_of_ne_zero (by omega)
        exact hstep fuel c fun d hd => absurd hd (hsink d)
  exact hpath fuel [] a .nil (fun _ h => absurd h List.not_mem_nil)
    (fun _ h => absurd h List.not_mem_nil) .refl (by simpa using hfuel)

/-! ### Where flattening goes -/

namespace Document

variable (doc : Document)

/-- The node is a reference to the other one. -/
def Refers (n m : Node) : Prop :=
  ∃ value ref, n.has "$ref" = .ok true ∧ n.get "$ref" = .ok value ∧ value.asText = .ok ref ∧
    doc.resolve ref = .ok m

/-- The node has an `allOf` with the other one as a member. -/
def HasMember (n m : Node) : Prop :=
  n.has "allOf" = .ok true ∧ ∃ value members, n.get "allOf" = .ok value ∧
    value.items = .ok members ∧
    m ∈ members

/-- The node has an `allOf` with a member that is the other one or leads to it by references, and
the other one has an `allOf` too. -/
def Includes (n m : Node) : Prop :=
  ∃ member, HasMember n member ∧ ReflTransGen doc.Refers member m ∧ m.has "$ref" = .ok false ∧
    m.has "allOf" = .ok true

/-- References from members do not go round in a circle, and no schema is included in itself by way
of another one. -/
structure AllOfAcyclic : Prop where
  references : ∀ {n member m}, doc.Part n → HasMember n member → ReflTransGen doc.Refers member m →
    ¬ TransGen doc.Refers m m
  members : ∀ {n}, doc.Part n → ¬ TransGen (fun a b => doc.Includes a b ∧ a ≠ b) n n

end Document

namespace Document

variable {doc : Document} {n m : Node}

/-- What a reference leads to is a part. -/
theorem Refers.part (h : doc.Refers n m) : doc.Part m := by
  obtain ⟨_, _, -, -, -, hm⟩ := h
  exact doc.part_hereditary.resolve hm

/-- A part that is a reference is one of the nodes of the document. -/
theorem Refers.mem_subnodes (h : doc.Refers n m) (htree : doc.IsTree) (hn : doc.Part n) :
    n ∈ doc.root.subnodes := by
  obtain ⟨_, _, hhas, hget, -⟩ := h
  exact (htree.mem_subnodes_of_get hn hhas hget).1

theorem HasMember.part (hn : doc.Part n) (h : HasMember n m) : doc.Part m := by
  obtain ⟨-, value, members, hvalue, hmembers, hm⟩ := h
  exact doc.part_hereditary.items (doc.part_hereditary.get hn hvalue) hmembers hm

theorem Includes.part (hn : doc.Part n) (h : doc.Includes n m) : doc.Part m := by
  obtain ⟨member, hmember, hreferences, -⟩ := h
  induction hreferences with
  | refl => exact hmember.part hn
  | tail _ hrefers _ => exact hrefers.part

/-- A chain of references ends at a node that is none. -/
theorem reflTransGen_of_dereference {fuel : Nat} (h : doc.dereference fuel n = .ok m) :
    ReflTransGen doc.Refers n m ∧ m.has "$ref" = .ok false := by
  induction fuel generalizing n with
  | zero => cases h
  | succ fuel ih =>
    obtain ⟨isReference, hhas, h⟩ := except_bind_eq_ok.mp h
    cases isReference with
    | false =>
      cases h
      exact ⟨.refl, hhas⟩
    | true =>
      obtain ⟨value, hvalue, h⟩ := except_bind_eq_ok.mp h
      obtain ⟨ref, href, h⟩ := except_bind_eq_ok.mp h
      obtain ⟨target, htarget, h⟩ := except_bind_eq_ok.mp h
      obtain ⟨hreferences, hend⟩ := ih h
      exact ⟨.head ⟨value, ref, hhas, hvalue, href, htarget⟩ hreferences, hend⟩

/-! ### Flattening ends -/

namespace AllOfAcyclic

variable (h : doc.AllOfAcyclic) (htree : doc.IsTree)
include h htree

/-- From a member of an `allOf` the references come to an end. -/
theorem dereference_ends {member : Node} (hn : doc.Part n) (hm : HasMember n member) :
    FailsWith (· ≠ .endless) (doc.dereference (doc.size + 2) member) := by
  have hP := readingFaults_ne_endless
  have hfinite {a b : Node} (hab : doc.Refers a b) :
      b ∈ doc.root.subnodes ∨ ∀ c, ¬ doc.Refers b c := by
    by_cases hb : ∃ c, doc.Refers b c
    · obtain ⟨c, hc⟩ := hb
      exact .inl (hc.mem_subnodes htree hab.part)
    · exact .inr fun c hc => hb ⟨c, hc⟩
  have hstep (fuel : Nat) (a : Node)
      (ih : ∀ b, doc.Refers a b → FailsWith (· ≠ .endless) (doc.dereference fuel b)) :
      FailsWith (· ≠ .endless) (doc.dereference (fuel + 1) a) := by
    refine (hP.has a _).bind fun isReference hhas => .ite (fun htrue => ?_) fun _ => .ok _
    refine (hP.get a _).bind fun value hvalue => (hP.asText value).bind fun ref href => ?_
    refine (hP.resolve doc ref).bind fun b hb => ih b ⟨value, ref, ?_, hvalue, href, hb⟩
    rw [hhas, htrue]
  have hsize := Nat.le_trans doc.root.length_subnodes_le htree.size
  exact fuel_induction hfinite hstep (fun b hb => h.references hn hm hb)
    (Nat.add_le_add_right hsize 2)

/-- The flattening of a schema comes to an end. -/
theorem flatten_ends (hn : doc.Part n) (href : n.has "$ref" = .ok false)
    (hall : n.has "allOf" = .ok true) (label : String) :
    FailsWith (· ≠ .endless) (doc.flatten n label) := by
  have hP := readingFaults_ne_endless
  let E (a b : Node) : Prop := doc.Part a ∧ doc.Includes a b ∧ a ≠ b
  have hfinite {a b : Node} (hab : E a b) : b ∈ doc.root.subnodes ∨ ∀ c, ¬ E b c := by
    obtain ⟨ha, hab, -⟩ := hab
    by_cases hb : ∃ c, E b c
    · obtain ⟨c, hb, ⟨member, ⟨hhas, value, members, hget, -⟩, -⟩, -⟩ := hb
      exact .inl (htree.mem_subnodes_of_get hb hhas hget).1
    · exact .inr fun c hc => hb ⟨c, hc⟩
  have hacyclic (b : Node) (_ : ReflTransGen E n b) : ¬ TransGen E b b := by
    intro hb
    have hpart : doc.Part b := by
      obtain ⟨c, ⟨hb, -⟩, -⟩ := TransGen.head'_iff.mp hb
      exact hb
    exact h.members hpart (TransGen.mono (fun _ _ hE => hE.2) _ _ hb)
  let P (fuel : Nat) (a : Node) : Prop := doc.Part a → a.has "$ref" = .ok false →
    a.has "allOf" = .ok true → FailsWith (· ≠ .endless) (doc.flattenWithin label fuel a)
  have hstep (fuel : Nat) (a : Node) (ih : ∀ b, E a b → P fuel b) : P (fuel + 1) a := by
    intro ha haref haall
    refine (hP.get a _).bind fun value hvalue => (hP.items value).bind fun members hmembers => ?_
    refine ReadingFaults.mergeMembers (fun member hmember => ?_) _
    rcases List.mem_append.mp hmember with hmember | hself
    · have hm : HasMember a member := ⟨haall, value, members, hvalue, hmembers, hmember⟩
      refine hP.memberShape (h.dereference_ends htree ha hm) fun part hpart hall hne => ?_
      obtain ⟨hreferences, hend⟩ := reflTransGen_of_dereference hpart
      have hincludes : doc.Includes a part := ⟨member, hm, hreferences, hend, hall⟩
      refine ih part ⟨ha, hincludes, ?_⟩ (hincludes.part ha) hend hall
      rintro rfl
      exact hne rfl
    · -- The schema itself is no reference, and is not flattened again.
      rw [List.mem_singleton.mp hself]
      have hderef : doc.dereference (doc.size + 2) a = .ok a := by
        rw [Document.dereference, haref]
        rfl
      refine hP.memberShape (hderef ▸ .ok a) fun part hpart _ hne => ?_
      cases hderef.symm.trans hpart
      exact absurd rfl hne
  have hsize := Nat.le_trans doc.root.length_subnodes_le htree.size
  exact fuel_induction hfinite hstep hacyclic (Nat.add_le_add_right hsize 2) hn href hall

end AllOfAcyclic

end Document

end ServiceContract
