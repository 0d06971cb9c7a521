import ServiceContract.Proofs.Document.Edit
import ServiceContract.Proofs.Document.Fuel
import ServiceContract.Proofs.Document.Pointer
import ServiceContract.Proofs.Schema.Lineage

/-!
# Chains of references

From an object of a document its reference leads to another object, and so on. There is one way on
at most, so that a chain ends at an object without a reference, or comes to a reference that cannot
be followed, or comes to a circle and stays on it, and it does only one of these. Following the
chain notices the circle when a reference is met again, which is so at an object on the circle, also
if the chain has come from outside. Until then all references are different, and the document has
only so many of them.

## Main definitions

* `Node.Cites`: the reference of an object.
* `Document.Stuck`: objects whose reference cannot be followed.
* `Document.Outcome`: what becomes of a chain.
* `Document.Comes`: where a chain comes to without going round.
* `Document.Follows`: what following a chain should give, case by case.

## Main results

* `Document.followFrom_outcome`: following a chain gives its outcome.
* `Document.Outcome.eq_of_leads`, `Document.Outcome.eq_of_stuck`,
  `Document.Outcome.exists_of_circle`: a chain has one outcome.
* `Document.follow_outcome`: what following a chain gives.
-/

namespace ServiceContract

open Relation Text

/-! ### Ways on which there is one step on at most -/

section RightUnique

variable {α : Type} {r : α → α → Prop} {a b c : α}

/-- What a circle leads to is on the circle. -/
theorem circle_of_reach (hr : Relator.RightUnique r) (hcircle : TransGen r a a)
    (h : ReflTransGen r a b) :
    TransGen r b b ∧ ReflTransGen r b a := by
  induction h with
  | refl => exact ⟨hcircle, .refl⟩
  | @tail b c _ hbc ih =>
    obtain ⟨hb, hba⟩ := ih
    obtain ⟨d, hbd, hdb⟩ := TransGen.head'_iff.mp hb
    obtain rfl := hr hbd hbc
    exact ⟨TransGen.tail' hdb hbc, hdb.trans hba⟩

/-- All ways come to the end of one of them. -/
theorem reach_of_end (hr : Relator.RightUnique r) (h : ReflTransGen r a b) (hend : ∀ c, ¬ r b c)
    (h' : ReflTransGen r a c) : ReflTransGen r c b := by
  rcases ReflTransGen.total_of_right_unique hr h h' with hbc | hcb
  · rcases ReflTransGen.cases_head hbc with rfl | ⟨d, hfirst, -⟩
    · exact .refl
    · exact absurd hfirst (hend d)
  · exact hcb

/-- There is no circle on a way to an end. -/
theorem not_circle_of_end (hr : Relator.RightUnique r) (h : ReflTransGen r a b)
    (hend : ∀ c, ¬ r b c) :
    ¬ TransGen r a a := by
  intro hcircle
  obtain ⟨c, hfirst, -⟩ := TransGen.head'_iff.mp (circle_of_reach hr hcircle h).1
  exact hend c hfirst

end RightUnique

/-! ### References of objects -/

/-- The node has the text as its reference. -/
def Node.Cites (n : Node) (ref : String) : Prop :=
  n.has "$ref" = .ok true ∧ ∃ value, n.get "$ref" = .ok value ∧ value.asText = .ok ref

namespace Document

variable {doc : Document} {n m k : Node} {ref : String} {fault : Fault}

theorem refers_iff : doc.Refers n m ↔ ∃ ref, n.Cites ref ∧ doc.resolve ref = .ok m := by
  constructor
  · rintro ⟨value, ref, hhas, hvalue, htext, hm⟩
    exact ⟨ref, ⟨hhas, value, hvalue, htext⟩, hm⟩
  · rintro ⟨ref, ⟨hhas, value, hvalue, htext⟩, hm⟩
    exact ⟨value, ref, hhas, hvalue, htext, hm⟩

theorem Cites.unique {ref' : String} (h : n.Cites ref) (h' : n.Cites ref') : ref = ref' := by
  obtain ⟨-, value, hvalue, htext⟩ := h
  obtain ⟨-, value', hvalue', htext'⟩ := h'
  cases hvalue.symm.trans hvalue'
  exact Except.ok.inj (htext.symm.trans htext')

/-- A reference leads to one object only. -/
theorem refers_rightUnique (doc : Document) : Relator.RightUnique doc.Refers := by
  intro n m m' h h'
  obtain ⟨ref, hcites, hm⟩ := refers_iff.mp h
  obtain ⟨ref', hcites', hm'⟩ := refers_iff.mp h'
  cases Cites.unique hcites hcites'
  exact Except.ok.inj (hm.symm.trans hm')

/-- References lead to objects. -/
theorem Refers.exists_eq_map (h : doc.Refers n m) : ∃ a es, m = .map a es := by
  obtain ⟨ref, -, hm⟩ := refers_iff.mp h
  obtain ⟨-, -, -, hmap⟩ := resolve_eq_ok_iff.mp hm
  exact hmap

variable (doc) in
/-- The reference of the node cannot be followed: it is no text, or has a fault when it is
resolved. -/
inductive Stuck (n : Node) : Fault → Prop
  | unreadable (hhas : n.has "$ref" = .ok true) (hnone : ∀ ref, ¬ n.Cites ref) : Stuck n .malformed
  | unresolved {ref : String} {fault : Fault} (hcites : n.Cites ref)
    (h : doc.resolve ref = .error fault) :
    Stuck n fault

/-- A chain does not go on from a node whose reference cannot be followed. -/
theorem Stuck.not_refers (h : doc.Stuck n fault) : ¬ doc.Refers n m := by
  intro hrefers
  obtain ⟨ref, hcites, hm⟩ := refers_iff.mp hrefers
  cases h with
  | unreadable hhas hnone => exact hnone ref hcites
  | unresolved hcites' h =>
    cases Cites.unique hcites hcites'
    cases hm.symm.trans h

theorem Stuck.has (h : doc.Stuck n fault) : n.has "$ref" = .ok true := by
  cases h with
  | unreadable hhas _ => exact hhas
  | unresolved hcites _ => exact hcites.1

/-- A reference that cannot be followed has one fault. -/
theorem Stuck.unique {fault' : Fault} (h : doc.Stuck n fault) (h' : doc.Stuck n fault') :
    fault = fault' := by
  cases h with
  | unreadable hhas hnone =>
    cases h' with
    | unreadable => rfl
    | unresolved hcites' _ => exact absurd hcites' (hnone _)
  | unresolved hcites h =>
    cases h' with
    | unreadable _ hnone => exact absurd hcites (hnone _)
    | unresolved hcites' h' =>
      cases Cites.unique hcites hcites'
      exact Except.error.inj (h.symm.trans h')

/-! ### Outcomes -/

variable (doc) in
/-- What becomes of the chain of references from a node: it leads to an object without a reference,
it comes to a circle, where one of the objects stands for all, or it comes to a reference that
cannot be followed. -/
inductive Outcome (n : Node) : Except Fault Node → Prop
  | ends {m : Node} (h : doc.Leads n m) : Outcome n (.ok m)
  | circle {m : Node} (h : ReflTransGen doc.Refers n m) (hcircle : TransGen doc.Refers m m) :
    Outcome n (.ok m)
  | stuck {m : Node} {fault : Fault} (h : ReflTransGen doc.Refers n m) (hm : doc.Stuck m fault) :
    Outcome n (.error fault)

theorem Outcome.head {result : Except Fault Node} (h : doc.Refers n m)
    (hresult : doc.Outcome m result) :
    doc.Outcome n result := by
  cases hresult with
  | ends hm => exact .ends ⟨.head h hm.1, hm.2⟩
  | circle hm hcircle => exact .circle (.head h hm) hcircle
  | stuck hm hstuck => exact .stuck (.head h hm) hstuck

section Unique

variable {result : Except Fault Node} (h : doc.Outcome n result)
include h

/-- A chain that leads to an object without a reference has no other outcome. -/
theorem Outcome.eq_of_leads (hm : doc.Leads n m) : result = .ok m := by
  have hr := refers_rightUnique doc
  have hend (k : Node) : ¬ doc.Refers m k := fun ⟨_, _, hhas, _⟩ => nomatch hm.2.symm.trans hhas
  cases h with
  | ends hk => rw [hk.unique hm]
  | circle hk hcircle =>
    exact absurd hcircle (not_circle_of_end hr (reach_of_end hr hm.1 hend hk) hend)
  | stuck hk hstuck =>
    rcases ReflTransGen.cases_head (reach_of_end hr hm.1 hend hk) with rfl | ⟨_, hfirst, -⟩
    · cases hm.2.symm.trans hstuck.has
    · exact absurd hfirst hstuck.not_refers

/-- A chain that comes to a reference that cannot be followed has no other outcome. -/
theorem Outcome.eq_of_stuck (hm : ReflTransGen doc.Refers n m) (hstuck : doc.Stuck m fault) :
    result = .error fault := by
  have hr := refers_rightUnique doc
  have hend (k : Node) : ¬ doc.Refers m k := hstuck.not_refers
  cases h with
  | ends hk =>
    rcases ReflTransGen.cases_head (reach_of_end hr hm hend hk.1) with rfl | ⟨_, ⟨_, _, hhas, -⟩, -⟩
    · cases hk.2.symm.trans hstuck.has
    · cases hk.2.symm.trans hhas
  | circle hk hcircle =>
    exact absurd hcircle (not_circle_of_end hr (reach_of_end hr hm hend hk) hend)
  | stuck hk hstuck' =>
    rcases ReflTransGen.cases_head (reach_of_end hr hm hend hk) with rfl | ⟨_, hfirst, -⟩
    · rw [hstuck'.unique hstuck]
    · exact absurd hfirst hstuck'.not_refers

/-- A chain that comes to a circle has an object on the circle as its outcome. -/
theorem Outcome.exists_of_circle (hm : ReflTransGen doc.Refers n m)
    (hcircle : TransGen doc.Refers m m) :
    ∃ k, result = .ok k ∧ k.has "$ref" = .ok true ∧ ReflTransGen doc.Refers m k ∧
      ReflTransGen doc.Refers k m := by
  have hr := refers_rightUnique doc
  have hway {k : Node} (hk : ReflTransGen doc.Refers n k) (hend : ∀ l, ¬ doc.Refers k l) : False :=
    not_circle_of_end hr (reach_of_end hr hk hend hm) hend hcircle
  cases h with
  | ends hk => exact (hway hk.1 fun l ⟨_, _, hhas, _⟩ => nomatch hk.2.symm.trans hhas).elim
  | stuck hk hstuck => exact (hway hk fun l => hstuck.not_refers).elim
  | @circle k hk hkcircle =>
    obtain ⟨_, ⟨_, _, hhas, -⟩, -⟩ := TransGen.head'_iff.mp hkcircle
    rcases ReflTransGen.total_of_right_unique hr hm hk with hmk | hkm
    · exact ⟨k, rfl, hhas, hmk, (circle_of_reach hr hcircle hmk).2⟩
    · exact ⟨k, rfl, hhas, (circle_of_reach hr hkcircle hkm).2, hkm⟩

end Unique

/-! ### Following -/

section Steps

variable (fuel : ℕ) (seen : List String)

theorem followFrom_of_has_false (h : n.has "$ref" = .ok false) :
    doc.followFrom (fuel + 1) seen n = .ok n := by
  rw [followFrom, h]
  rfl

/-- A reference is followed unless it has been met. -/
theorem followFrom_of_cites (h : n.Cites ref) :
    doc.followFrom (fuel + 1) seen n =
      if ref ∈ seen then .ok n else doc.resolve ref >>= doc.followFrom fuel (ref :: seen) := by
  obtain ⟨hhas, value, hvalue, htext⟩ := h
  rw [followFrom, hhas, except_ok_bind, if_pos rfl, hvalue, except_ok_bind, htext, except_ok_bind]
  simp only [List.contains_iff_mem]
  rfl

/-- An object with a reference that is no text is malformed. -/
theorem followFrom_of_not_cites {a : Address} {es : List (Scalar × Node)}
    (hhas : (Node.map a es).has "$ref" = .ok true) (hnone : ∀ ref, ¬ (Node.map a es).Cites ref) :
    doc.followFrom (fuel + 1) seen (.map a es) = .error .malformed := by
  have hvalue : (Node.map a es).get "$ref" = .ok ((Node.lookup? "$ref" es).getD .null) := rfl
  rw [followFrom, hhas, except_ok_bind, if_pos rfl, hvalue, except_ok_bind]
  cases htext : ((Node.lookup? "$ref" es).getD .null).asText with
  | ok ref => exact absurd ⟨hhas, _, hvalue, htext⟩ (hnone ref)
  | error fault =>
    have hmalformed : fault = .malformed :=
      (KindFaults.mk (P := (· = .malformed)) rfl).asText _ htext
    rw [hmalformed]
    rfl

end Steps

/-- Following a chain gives its outcome, unless the bound is too small. The references in `seen` are
those on the way to the node. -/
theorem followFrom_outcome {fuel : ℕ} {seen : List String} (hmap : ∃ a es, n = .map a es)
    (hseen : ∀ ref ∈ seen, ∃ m, doc.resolve ref = .ok m ∧ ReflTransGen doc.Refers m n)
    (hends : doc.followFrom fuel seen n ≠ .error .endless) :
    doc.Outcome n (doc.followFrom fuel seen n) := by
  induction fuel generalizing n seen with
  | zero => exact absurd rfl hends
  | succ fuel ih =>
    obtain ⟨a, es, rfl⟩ := hmap
    cases hhas : (Node.lookup? "$ref" es).isSome with
    | false =>
      have hhas : (Node.map a es).has "$ref" = .ok false := congrArg Except.ok hhas
      rw [followFrom_of_has_false fuel seen hhas]
      exact .ends ⟨.refl, hhas⟩
    | true =>
      have hhas : (Node.map a es).has "$ref" = .ok true := congrArg Except.ok hhas
      by_cases hcites : ∃ ref, (Node.map a es).Cites ref
      · obtain ⟨ref, hcites⟩ := hcites
        rw [followFrom_of_cites fuel seen hcites] at hends ⊢
        split_ifs at hends ⊢ with hmet
        · -- The reference has led to this object before, and does so again.
          obtain ⟨m, hm, hback⟩ := hseen ref hmet
          exact .circle .refl (TransGen.head' (refers_iff.mpr ⟨ref, hcites, hm⟩) hback)
        · cases hm : doc.resolve ref with
          | error fault => exact .stuck .refl (.unresolved hcites hm)
          | ok m =>
            have hrefers : doc.Refers (.map a es) m := refers_iff.mpr ⟨ref, hcites, hm⟩
            rw [hm, except_ok_bind] at hends
            refine .head hrefers (ih hrefers.exists_eq_map ?_ hends)
            refine List.forall_mem_cons.mpr ⟨⟨m, hm, .refl⟩, fun ref' hmem => ?_⟩
            obtain ⟨k, hk, hway⟩ := hseen ref' hmem
            exact ⟨k, hk, hway.tail hrefers⟩
      · rw [not_exists] at hcites
        rw [followFrom_of_not_cites fuel seen hhas hcites]
        exact .stuck .refl (.unreadable hhas hcites)

/-! ### Chains in documents of values -/

variable (doc) in
/-- The references lead from the first node to the second one, and do not come back to a node
before. -/
def Comes (n m : Node) : Prop :=
  ReflTransGen doc.Refers n m ∧
    ∀ k, ReflTransGen doc.Refers n k → ReflTransGen doc.Refers k m → ¬ TransGen doc.Refers k k

theorem Stuck.comes (h : ReflTransGen doc.Refers n m) (hm : doc.Stuck m fault) : doc.Comes n m :=
  ⟨h, fun _ _ hkm => not_circle_of_end (refers_rightUnique doc) hkm fun _ => hm.not_refers⟩

variable (doc) in
/-- The result is what following the chain of references from a node should give. -/
structure Follows (n : Node) (result : Except Fault Node) : Prop where
  outcome : doc.Outcome n result
  /-- At the end of the chain there is an object without a reference. -/
  leads : ∀ m, doc.Leads n m → result = .ok m
  /-- On a circle the result is one of its objects. -/
  circle : ∀ m, ReflTransGen doc.Refers n m → TransGen doc.Refers m m →
    ∃ k, result = .ok k ∧ k.has "$ref" = .ok true ∧ ReflTransGen doc.Refers m k ∧
    ReflTransGen doc.Refers k m
  /-- A reference cannot be resolved exactly if it leads to no object and is not malformed. -/
  unresolvable : ∀ ref, (∃ reason, result = .error (.unresolvable ref reason)) ↔
    ∃ m, doc.Comes n m ∧ m.Cites ref ∧ (∀ k, doc.resolve ref ≠ .ok k) ∧ ¬ doc.Stumbles ref
  /-- A reference is malformed exactly if it is no text or stumbles. -/
  malformed : result = .error .malformed ↔
    ∃ m, doc.Comes n m ∧
    ((m.has "$ref" = .ok true ∧ ∀ ref, ¬ m.Cites ref) ∨ ∃ ref, m.Cites ref ∧ doc.Stumbles ref)

theorem Outcome.follows {result : Except Fault Node} (h : doc.Outcome n result) :
    doc.Follows n result where
  outcome := h
  leads _ hm := h.eq_of_leads hm
  circle _ hm hcircle := h.exists_of_circle hm hcircle
  unresolvable ref := by
    constructor
    · rintro ⟨reason, rfl⟩
      cases h with
      | @stuck m _ hm hstuck =>
        cases hstuck with
        | unresolved hcites hresolve =>
          obtain ⟨rfl, hnone, hstumbles⟩ :=
            (resolve_eq_unresolvable_iff doc _).mp ⟨reason, hresolve⟩
          exact ⟨m, (Stuck.unresolved hcites hresolve).comes hm, hcites, hnone, hstumbles⟩
    · rintro ⟨m, ⟨hm, -⟩, hcites, hnone, hstumbles⟩
      obtain ⟨reason, hresolve⟩ := (resolve_eq_unresolvable_iff doc ref).mpr ⟨rfl, hnone, hstumbles⟩
      exact ⟨reason, h.eq_of_stuck hm (.unresolved hcites hresolve)⟩
  malformed := by
    constructor
    · rintro rfl
      cases h with
      | @stuck m _ hm hstuck =>
        refine ⟨m, hstuck.comes hm, ?_⟩
        cases hstuck with
        | unreadable hhas hnone => exact .inl ⟨hhas, hnone⟩
        | @unresolved ref _ hcites hresolve =>
          exact .inr ⟨ref, hcites, (resolve_eq_malformed_iff doc ref).mp hresolve⟩
    · rintro ⟨m, ⟨hm, -⟩, ⟨hhas, hnone⟩ | ⟨ref, hcites, hstumbles⟩⟩
      · exact h.eq_of_stuck hm (.unreadable hhas hnone)
      · exact h.eq_of_stuck hm
          (.unresolved hcites ((resolve_eq_malformed_iff doc ref).mpr hstumbles))

section Values

variable {v : Value} {steps : List Step} {es : List (Scalar × Value)} (h : v.At steps (.map es))
include h

/-- All references are different until one is met again, so that the number of texts bounds the
chain. -/
theorem follow_ends : (ofValue v).follow (.ofValue steps (.map es)) ≠ .error .endless := by
  intro hendless
  have htree := isTree_ofValue v
  have hcard := htree.card_texts_le
  refine htree.followFrom_ends .nil (fun _ hmem => absurd hmem List.not_mem_nil) h.part
    ?_ hendless rfl
  rw [List.length_nil]
  omega

/-- Following a chain from the start gives its outcome. -/
theorem outcome_follow :
    (ofValue v).Outcome (.ofValue steps (.map es))
    ((ofValue v).follow (.ofValue steps (.map es))) :=
  followFrom_outcome ⟨_, _, rfl⟩ (fun _ hmem => absurd hmem List.not_mem_nil) (follow_ends h)

/-- From every object of a document of a value the chain of references is followed within a bound,
whatever it is above the size of the document. If the chain leads to an object without a reference,
this is the result; if it comes to a circle, an object on the circle is, which has a reference
still. It is a fault exactly if the chain comes to a reference that does not lead to an object,
before it would come back to a node: the fault of a reference that cannot be resolved, or that of
one that is malformed, which is so if it is no text or comes to a list with an unreadable key. -/
theorem follow_outcome :
    ∃ result ≠ .error .endless, (ofValue v).follow (.ofValue steps (.map es)) = result ∧
      (∀ fuel ≥ (ofValue v).size + 2,
        (ofValue v).followFrom fuel [] (.ofValue steps (.map es)) = result) ∧
      (ofValue v).Follows (.ofValue steps (.map es)) result :=
  ⟨_, follow_ends h, rfl, fun _ hfuel => (isTree_ofValue v).followFrom_eq h.part hfuel,
    (outcome_follow h).follows⟩

end Values

/-- A map with a reference. -/
def citing (ref : String) : Value :=
  .map [(.text "$ref", .text ref)]

/-- An object refers to one of two that refer to each other. -/
def ringed : Value :=
  .map [(.text "a", citing "#/b"), (.text "b", citing "#/c"), (.text "c", citing "#/b")]

/-- The object of it with this key. -/
def ringNode (key ref : String) : Node :=
  .ofValue [.key (.text key)] (citing ref)

/-- From outside, the chain ends on the circle. -/
theorem follow_outcome_ringed :
    ringed.At [.key (.text "a")] (citing "#/b") ∧
      TransGen (ofValue ringed).Refers (ringNode "b" "#/c") (ringNode "b" "#/c") ∧
      ∃ k, (ofValue ringed).follow (ringNode "a" "#/b") = .ok k ∧ k.has "$ref" = .ok true ∧
        ReflTransGen (ofValue ringed).Refers (ringNode "b" "#/c") k ∧
        ReflTransGen (ofValue ringed).Refers k (ringNode "b" "#/c") := by
  have hat : ringed.At [.key (.text "a")] (citing "#/b") := .entry .root List.mem_cons_self
  have hrefers (key ref key' ref' : String)
      (h : (ofValue ringed).resolve ref = .ok (ringNode key' ref')) :
      (ofValue ringed).Refers (ringNode key ref) (ringNode key' ref') :=
    refers_iff.mpr ⟨ref, ⟨rfl, _, rfl, rfl⟩, h⟩
  have hcircle : TransGen (ofValue ringed).Refers (ringNode "b" "#/c") (ringNode "b" "#/c") :=
    .head (hrefers "b" "#/c" "c" "#/b" rfl) (.single (hrefers "c" "#/b" "b" "#/c" rfl))
  obtain ⟨_, -, rfl, -, hfollows⟩ := follow_outcome hat
  exact ⟨hat, hcircle, hfollows.circle _ (.single (hrefers "a" "#/b" "b" "#/c" rfl)) hcircle⟩

/-- A key of too many decimal digits. -/
def longKey : String :=
  String.ofList (List.replicate (maxDigits + 1) '9')

/-- A list, and an object that refers to a position of it that is too long to be read. -/
def overlong : Value :=
  .map [(.text "a", .list []), (.text "b", citing (pointer ["a", longKey]))]

/-- This reference leads to no object, and is malformed though all digits in it are decimal ones. -/
theorem not_follow_outcome_overlong :
    overlong.At [.key (.text "b")] (citing (pointer ["a", longKey])) ∧
      (∀ c ∈ longKey.toList, c.isDigit = true) ∧
      (∀ k, (ofValue overlong).resolve (pointer ["a", longKey]) ≠ .ok k) ∧
      ¬ ∃ ref reason,
        (ofValue overlong).follow (.ofValue [.key (.text "b")] (citing (pointer ["a", longKey]))) =
        .error (.unresolvable ref reason) := by
  have hat : overlong.At [.key (.text "b")] (citing (pointer ["a", longKey])) :=
    .entry .root (List.mem_cons_of_mem _ List.mem_cons_self)
  have hchars : longKey.toList = List.replicate (maxDigits + 1) '9' := String.toList_ofList
  have hdigits : ∀ c ∈ longKey.toList, c.isDigit = true := by
    intro c hc
    rw [hchars] at hc
    obtain rfl := List.eq_of_mem_replicate hc
    rfl
  have hlong : maxDigits < longKey.length := by
    rw [← String.length_toList, hchars, List.length_replicate]
    exact Nat.lt_succ_self _
  have hne : longKey ≠ "" := by
    intro hempty
    rw [hempty] at hlong
    exact Nat.not_lt_zero _ hlong
  have hunreadable : IsUnreadable longKey :=
    ⟨hne, fun c hc => isDigitLike_of_isDigit (hdigits c hc), .inl hlong⟩
  have hresolve : (ofValue overlong).resolve (pointer ["a", longKey]) = .error .malformed :=
    (resolve_eq_malformed_iff _ _).mpr (stumbles_pointer (List.cons_ne_nil _ _)
      ⟨["a"], longKey, [], _, _, rfl, .entry rfl (.here _), hunreadable⟩)
  have hfollow := (outcome_follow hat).eq_of_stuck .refl (.unresolved ⟨rfl, _, rfl, rfl⟩ hresolve)
  exact ⟨hat, hdigits, fun _ h => (nomatch hresolve.symm.trans h), fun ⟨_, _, h⟩ =>
    (nomatch hfollow.symm.trans h)⟩

end Document

end ServiceContract
