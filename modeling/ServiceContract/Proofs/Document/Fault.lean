import ServiceContract.Document.Reference
import ServiceContract.Proofs.Session.Run

/-!
# Faults of reading

What is read from a document is read without checking it first, so almost every reader can fail. It
fails because a value is of the wrong kind, because a reference leads nowhere, or because there is
no type for a schema. A property that these faults have is shared by all faults of readers without a
bound.

## Main definitions

* `FailsWith`: every fault of a result has a property.
* `KindFaults`, `ReadingFaults`: a property that all faults of reading a node have, and all faults
  of reading.

## Main results

* `FailsWith.bind`, `FailsWith.mapM`: composed results fail as their parts do.
* `KindFaults.get`, `KindFaults.items`, `ReadingFaults.resolve`: the readers of a document.
-/

namespace ServiceContract

/-! ### Results that fail with given faults -/

/-- Every fault of the result has the property `P`. -/
def FailsWith {α : Type} (P : Fault → Prop) (x : Except Fault α) : Prop :=
  ∀ ⦃fault⦄, x = .error fault → P fault

namespace FailsWith

variable {α β : Type} {P : Fault → Prop}

theorem ok (a : α) : FailsWith P (.ok a) := by
  intro fault h
  cases h

theorem error {fault : Fault} (h : P fault) : FailsWith P (.error fault : Except Fault α) := by
  intro fault' heq
  cases heq
  exact h

theorem bind {x : Except Fault α} {k : α → Except Fault β} (hx : FailsWith P x)
    (hk : ∀ a, x = .ok a → FailsWith P (k a)) : FailsWith P (x >>= k) := by
  cases x with
  | error fault => exact error (hx rfl)
  | ok a => exact hk a rfl

/-- A fault that the first part of a composed result does not have comes from the second part. -/
theorem bind_eq_error {x : Except Fault α} {k : α → Except Fault β} {fault : Fault}
    (hx : FailsWith (· ≠ fault) x) (h : x >>= k = .error fault) :
    ∃ a, x = .ok a ∧ k a = .error fault := by
  cases x with
  | error fault' => exact absurd (Except.error.inj h) (hx rfl)
  | ok a => exact ⟨a, rfl, h⟩

theorem ite {c : Prop} [Decidable c] {x y : Except Fault α} (hx : c → FailsWith P x)
    (hy : ¬c → FailsWith P y) : FailsWith P (if c then x else y) := by
  split_ifs with h
  · exact hx h
  · exact hy h

theorem mapM {f : α → Except Fault β} (hf : ∀ a, FailsWith P (f a)) (l : List α) :
    FailsWith P (l.mapM f) := by
  induction l with
  | nil => exact .ok _
  | cons a l ih =>
    rw [List.mapM_cons]
    exact (hf a).bind fun _ _ => ih.bind fun _ _ => .ok _

end FailsWith

/-! ### Readers -/

/-- The fault of reading a node as something that it is not has the property `P`. -/
structure KindFaults (P : Fault → Prop) : Prop where
  malformed : P .malformed

namespace KindFaults

variable {P : Fault → Prop} (hP : KindFaults P)
include hP

theorem has (n : Node) (key : String) : FailsWith P (n.has key) := by
  unfold Node.has
  split
  · exact .ok _
  · exact .ok _
  · exact .ok _
  · exact .error hP.malformed

theorem hasAny (keys : List String) (n : Node) : FailsWith P (n.hasAny keys) := by
  induction keys with
  | nil => exact .ok _
  | cons key keys ih => exact (hP.has n key).bind fun _ _ => .ite (fun _ => .ok _) fun _ => ih

theorem get? (n : Node) (key : String) : FailsWith P (n.get? key) := by
  unfold Node.get?
  split
  · exact .ok _
  · exact .error hP.malformed

theorem get (n : Node) (key : String) : FailsWith P (n.get key) :=
  (hP.get? n key).bind fun _ _ => .ok _

theorem items (n : Node) : FailsWith P n.items := by
  unfold Node.items
  split
  · exact .ok _
  · exact .ok _
  · exact .ok _
  · exact .error hP.malformed

theorem entries (n : Node) : FailsWith P n.entries := by
  unfold Node.entries
  split
  · exact .ok _
  · exact .error hP.malformed

theorem asText (n : Node) : FailsWith P n.asText := by
  unfold Node.asText
  split
  · exact .ok _
  · exact .error hP.malformed

theorem asScalar (n : Node) : FailsWith P n.asScalar := by
  unfold Node.asScalar
  split
  · exact .ok _
  · exact .error hP.malformed

theorem itemsIfAny (n : Node) : FailsWith P n.itemsIfAny :=
  .ite (fun _ => hP.items n) fun _ => .ok _

theorem entriesIfAny (n : Node) : FailsWith P n.entriesIfAny :=
  .ite (fun _ => hP.entries n) fun _ => .ok _

theorem trimmedText (n : Node) : FailsWith P n.trimmedText :=
  .ite (fun _ => (hP.asText n).bind fun _ _ => .ok _) fun _ => .ok _

theorem plainText (v : Value) : FailsWith P v.plainText :=
  .ite (fun _ => .ok _) fun _ => .error hP.malformed

theorem literalText (v : Value) : FailsWith P v.literalText :=
  .ite (fun _ => .ok _) fun _ => .error hP.malformed

theorem position? (key : String) : FailsWith P (position? key) := by
  refine .ite (fun _ => .ok _) fun _ => .ite (fun _ => .error hP.malformed) fun _ => ?_
  split
  · exact .ok _
  · exact .error hP.malformed

theorem enter? (n : Node) (key : String) : FailsWith P (n.enter? key) := by
  unfold Node.enter?
  split
  · exact .ok _
  · exact (hP.position? key).bind fun _ _ => .ok _
  · exact .ok _

end KindFaults

/-! ### References -/

/-- All faults of reading have the property `P`. -/
structure ReadingFaults (P : Fault → Prop) : Prop extends KindFaults P where
  unsupported : ∀ schema reason, P (.unsupported schema reason)
  unresolvable : ∀ ref reason, P (.unresolvable ref reason)

/-- Reading a node comes to an end. -/
theorem readingFaults_ne_endless : ReadingFaults (· ≠ .endless) where
  malformed := nofun
  unsupported := nofun
  unresolvable := nofun

namespace ReadingFaults

variable {P : Fault → Prop} (hP : ReadingFaults P)
include hP

theorem walk (ref : String) (n : Node) (segments : List (List Char)) :
    FailsWith P (Document.walk ref n segments) := by
  induction segments generalizing n with
  | nil => exact .ok _
  | cons segment segments ih =>
    refine (hP.enter? n _).bind fun child _ => ?_
    cases child with
    | some child => exact ih child
    | none => exact .error (hP.unresolvable _ _)

theorem resolve (doc : Document) (ref : String) : FailsWith P (doc.resolve ref) := by
  unfold Document.resolve
  split
  · refine (hP.walk ref doc.root _).bind fun target _ => ?_
    split
    · exact .ok _
    · exact .error (hP.unresolvable _ _)
  · exact .error (hP.unresolvable _ _)

/-- A chain of references may have no end besides. -/
theorem follow (hendless : P .endless) (doc : Document) (n : Node) :
    FailsWith P (doc.follow n) := by
  have hfrom (fuel : Nat) (seen : List String) (n : Node) :
      FailsWith P (doc.followFrom fuel seen n) := by
    induction fuel generalizing seen n with
    | zero => exact .error hendless
    | succ fuel ih =>
      refine (hP.has n _).bind fun _ _ => .ite (fun _ => ?_) fun _ => .ok _
      refine (hP.get n _).bind fun value _ => (hP.asText value).bind fun ref _ => ?_
      exact .ite (fun _ => .ok _) fun _ => (hP.resolve doc ref).bind fun target _ => ih _ target
  exact hfrom _ [] n

end ReadingFaults

end ServiceContract
