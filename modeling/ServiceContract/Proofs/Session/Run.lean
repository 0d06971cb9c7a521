import Mathlib.Order.Defs.Unbundled
import Mathlib.Tactic.SplitIfs
import ServiceContract.Proofs.FreshName
import ServiceContract.Schema.Session

/-!
# Runs of steps

A step takes a session to a session, whether it fails or not. Two kinds of statement about steps are
put together along `bind`: what a run that succeeds has gone through, and how the session after any
run is related to the one before it.

## Main definitions

* `Build.Moves`: every run of a step goes from a session to a related one.

## Main results

* `Build.bind_eq_ok`: a composed step succeeds when both of its steps do.
* `Build.Moves.bind`: composed steps move along a relation that their parts move along.
-/

namespace ServiceContract

theorem except_ok_bind {α β : Type} (a : α) (k : α → Except Fault β) :
    Except.ok a >>= k = k a := rfl

/-- A composed result is no fault when neither of its parts is. -/
theorem except_bind_eq_ok {ε α β : Type} {x : Except ε α} {k : α → Except ε β} {b : β} :
    x >>= k = .ok b ↔ ∃ a, x = .ok a ∧ k a = .ok b := by
  cases x with
  | error fault => simp [bind, Except.bind]
  | ok a => simp [bind, Except.bind]

/-- A result that passes a test is there. -/
theorem exists_of_any {ε α : Type} {x : Except ε α} {p : α → Bool} (h : x.toOption.any p = true) :
    ∃ a, x = .ok a ∧ p a = true := by
  cases x with
  | error fault => cases h
  | ok a => exact ⟨a, rfl, h⟩

/-- What is found at a key stands in the list with it. -/
theorem mem_of_lookup {α β : Type} [DecidableEq α] {k : α} {v : β} {l : List (α × β)}
    (h : l.lookup k = some v) : (k, v) ∈ l := by
  obtain ⟨before, after, rfl, -⟩ := List.lookup_eq_some_iff.mp h
  exact List.mem_append_right before List.mem_cons_self

/-- What is found in front of a list is the entry there, if it has the key. -/
theorem lookup_cons_ite {α β : Type} [DecidableEq α] (k k' : α) (v : β) (l : List (α × β)) :
    ((k', v) :: l).lookup k = if k = k' then some v else l.lookup k := by
  rw [List.lookup_cons]
  by_cases h : k = k'
  · simp [h]
  · simp [h, beq_false_of_ne h]

namespace Build

variable {α β : Type}

/-! ### Equations -/

protected theorem id_map (m : Build α) : id <$> m = m := by
  funext s
  change (m >>= pure) s = m s
  rw [bind_apply]
  rcases m s with ⟨_ | _, _⟩ <;> rfl

protected theorem bind_assoc {γ : Type} (m : Build α) (k : α → Build β) (l : β → Build γ) :
    m >>= k >>= l = m >>= fun a => k a >>= l := by
  funext s
  simp only [bind_apply]
  rcases m s with ⟨_ | _, _⟩ <;> rfl

instance : LawfulMonad Build :=
  .mk' Build Build.id_map (fun _ _ => rfl) Build.bind_assoc

@[simp] theorem lift_apply (x : Except Fault α) (s : Session) :
    (liftM x : Build α) s = (x, s) := rfl

theorem lift_bind (x : Except Fault α) (k : α → Except Fault β) :
    (liftM (x >>= k) : Build β) = (liftM x : Build α) >>= fun a => liftM (k a) := by
  funext s
  cases x <;> rfl

theorem lift_pure (a : α) : (liftM (pure a : Except Fault α) : Build α) = pure a := rfl

theorem lift_ite (c : Prop) [Decidable c] (x y : Except Fault α) :
    (liftM (if c then x else y) : Build α) = if c then liftM x else liftM y := by
  split_ifs <;> rfl

theorem ite_bind (c : Prop) [Decidable c] (m n : Build α) (k : α → Build β) :
    (if c then m else n) >>= k = if c then m >>= k else n >>= k := by
  split_ifs <;> rfl

/-! ### Runs that succeed -/

theorem bind_eq_ok {m : Build α} {k : α → Build β} {s s' : Session} {b : β} :
    (m >>= k) s = (.ok b, s') ↔ ∃ a s₁, m s = (.ok a, s₁) ∧ k a s₁ = (.ok b, s') := by
  rw [bind_apply]
  rcases m s with ⟨_ | a, s₁⟩
  · simp
  · constructor
    · exact fun h => ⟨a, s₁, rfl, h⟩
    · rintro ⟨_, _, ⟨⟩, h⟩
      exact h

theorem lift_bind_eq_ok {x : Except Fault α} {k : α → Build β} {s s' : Session} {b : β} :
    ((liftM x : Build α) >>= k) s = (.ok b, s') ↔ ∃ a, x = .ok a ∧ k a s = (.ok b, s') := by
  cases x with
  | error fault => simp
  | ok a => simp

theorem pure_eq_ok {a b : α} {s s' : Session} :
    (pure a : Build α) s = (.ok b, s') ↔ b = a ∧ s' = s := by
  simp only [pure_apply, Prod.mk.injEq, Except.ok.injEq, eq_comm]

/-! ### What the steps that name types do -/

theorem reserveInline_apply (schema : Node) (hint : String) (s : Session) :
    reserveInline schema hint s =
      (.ok (freshName "" s.taken (nonEmpty (Naming.pascal hint) "Inline")),
        { s with
          taken := freshName "" s.taken (nonEmpty (Naming.pascal hint) "Inline") :: s.taken
          inlines := (schema.address,
            freshName "" s.taken (nonEmpty (Naming.pascal hint) "Inline")) :: s.inlines }) := rfl

/-- A reference to a component gets the name of the component. -/
theorem reserveReference_component {ref name : String} {s : Session}
    (h : componentName? s.components ref = some name) :
    reserveReference ref s =
      (.ok name, { s with references := (ref, .declared name) :: s.references }) := by
  simp only [reserveReference, bind_apply, read_apply, h]
  rfl

/-- A reference to any other schema gets a fresh name. -/
theorem reserveReference_fresh {ref : String} {s : Session}
    (h : componentName? s.components ref = none) :
    reserveReference ref s =
      (.ok (freshName "" s.taken (nonEmpty (Naming.pascal (referenceName ref)) "Schema")),
        { s with
          taken := freshName "" s.taken (nonEmpty (Naming.pascal (referenceName ref)) "Schema")
            :: s.taken
          references := (ref, .declared (freshName "" s.taken
            (nonEmpty (Naming.pascal (referenceName ref)) "Schema"))) :: s.references }) := by
  simp only [reserveReference, bind_apply, read_apply, h]
  rfl

/-- A reference gets a name in front of the references that have a type, and names stay taken. -/
theorem reserveReference_apply (ref : String) (s : Session) :
    ∃ name taken, (∀ n ∈ s.taken, n ∈ taken) ∧ reserveReference ref s =
      (.ok name, { s with taken, references := (ref, .declared name) :: s.references }) := by
  cases h : componentName? s.components ref with
  | some name => exact ⟨name, s.taken, fun _ hn => hn, reserveReference_component h⟩
  | none => exact ⟨_, _, fun _ hn => List.mem_cons_of_mem _ hn, reserveReference_fresh h⟩

/-- A reference that gets a name gets that of its component, or one that is not taken. -/
theorem reserveReference_eq_ok {ref name : String} {s t : Session}
    (h : reserveReference ref s = (.ok name, t)) :
    t.references = (ref, .declared name) :: s.references ∧ t.inlines = s.inlines ∧
      t.components = s.components ∧ (∀ n ∈ s.taken, n ∈ t.taken) ∧
      ((componentName? s.components ref = none ∧ name ∉ s.taken ∧ name ∈ t.taken) ∨
        componentName? s.components ref = some name) := by
  cases hc : componentName? s.components ref with
  | some component =>
    rw [reserveReference_component hc] at h
    cases h
    exact ⟨rfl, rfl, rfl, fun _ hn => hn, .inr rfl⟩
  | none =>
    rw [reserveReference_fresh hc] at h
    cases h
    exact ⟨rfl, rfl, rfl, fun _ => List.mem_cons_of_mem _,
      .inl ⟨rfl, freshName_not_mem _ _ _, List.mem_cons_self⟩⟩

/-- An inline schema gets a name that is not taken. -/
theorem reserveInline_eq_ok {schema : Node} {hint name : String} {s t : Session}
    (h : reserveInline schema hint s = (.ok name, t)) :
    t.references = s.references ∧ t.inlines = (schema.address, name) :: s.inlines ∧
      t.components = s.components ∧ (∀ n ∈ s.taken, n ∈ t.taken) ∧ name ∉ s.taken ∧
      name ∈ t.taken := by
  rw [reserveInline_apply] at h
  cases h
  exact ⟨rfl, rfl, rfl, fun _ => List.mem_cons_of_mem _, freshName_not_mem _ _ _,
    List.mem_cons_self⟩

theorem declarations_reserveReference {ref name : String} {s t : Session}
    (h : reserveReference ref s = (.ok name, t)) : t.declarations = s.declarations := by
  obtain ⟨_, _, -, h'⟩ := reserveReference_apply ref s
  rw [h'] at h
  cases h
  rfl

theorem declarations_reserveInline {schema : Node} {hint name : String} {s t : Session}
    (h : reserveInline schema hint s = (.ok name, t)) : t.declarations = s.declarations := by
  cases h
  rfl

theorem whileResolving_apply (ref : String) (m : Build α) (s : Session) :
    whileResolving ref m s =
      ((m { s with resolving := ref :: s.resolving }).1,
        { (m { s with resolving := ref :: s.resolving }).2 with
          resolving := (m { s with resolving := ref :: s.resolving }).2.resolving.erase ref }) :=
  rfl

/-! ### Runs of either outcome -/

/-- Every run of the step, whether it fails or not, goes from a session to a related one. -/
def Moves (R : Session → Session → Prop) (m : Build α) : Prop :=
  ∀ s, R s (m s).2

namespace Moves

variable {R : Session → Session → Prop}

/-- A composed step moves from one session if its second step does after the first one. -/
theorem after {m : Build α} {k : α → Build β} {s t : Session} {a : α} (hm : m s = (.ok a, t))
    (hk : R s (k a t).2) : R s ((m >>= k) s).2 := by
  rwa [bind_apply, hm]

variable [IsPreorder Session R]

theorem pure (a : α) : Moves R (Pure.pure a : Build α) := fun s => refl_of R s

theorem fail (fault : Fault) : Moves R (Build.fail fault : Build α) := fun s => refl_of R s

/-- The session after a composed step is related to an earlier one if the session after its first
step is, and if its second step moves from there. -/
theorem bind_at {m : Build α} {k : α → Build β} {s u : Session} (hm : R s (m u).2)
    (hk : ∀ {a t}, m u = (.ok a, t) → R t (k a t).2) : R s ((m >>= k) u).2 := by
  rw [bind_apply]
  rcases hr : m u with ⟨_ | a, t⟩
  · rwa [hr] at hm
  · rw [hr] at hm
    exact trans_of R hm (hk hr)

theorem bind {m : Build α} {k : α → Build β} (hm : Moves R m) (hk : ∀ a, Moves R (k a)) :
    Moves R (m >>= k) :=
  fun s => bind_at (hm s) fun _ => hk _ _

theorem lift_bind {x : Except Fault α} {k : α → Build β} (hk : ∀ a, x = .ok a → Moves R (k a)) :
    Moves R ((liftM x : Build α) >>= k) := by
  cases x with
  | error fault => exact fun s => refl_of R s
  | ok a => exact hk a rfl

end Moves

end Build

end ServiceContract
