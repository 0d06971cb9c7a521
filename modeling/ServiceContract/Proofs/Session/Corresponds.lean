import ServiceContract.Contract.Build
import ServiceContract.Proofs.Session.Run

/-!
# Results up to the reason of a fault

Two results correspond if both are answers, which are related, or both are faults of the same class:
the same fault, or two faults that the same reference cannot be resolved, for whatever reasons. Two
steps correspond if they do the same in every session, or fail there with faults of the same class.

## Main definitions

* `Fault.SameClass`: faults that differ at most in the reason for which a reference cannot be
  resolved.
* `Corresponds`: results that correspond.
* `Build.Corresponds`: steps that correspond.

## Main results

* `Corresponds.bind`, `Build.Corresponds.bind`, `Build.Corresponds.lift_bind`: composed results and
  steps correspond if their parts do.
-/

namespace ServiceContract

/-- The faults differ at most in the reason for which a reference cannot be resolved. -/
inductive Fault.SameClass : Fault → Fault → Prop
  | refl (fault : Fault) : SameClass fault fault
  | unresolvable (ref : String) (reason reason' : Option String) (place : Option Place) :
    SameClass (.reported { cause := .unresolvableReference ref reason, place })
      (.reported { cause := .unresolvableReference ref reason', place })

/-- Faults of the same class get the same place. -/
theorem Fault.SameClass.locate {f g : Fault} (h : f.SameClass g) (httpMethod : String)
    (path : Scalar) (operationId : Value) :
    (f.locate httpMethod path operationId).SameClass (g.locate httpMethod path operationId) := by
  cases h with
  | refl => exact .refl _
  | unresolvable ref reason reason' place =>
    by_cases hplace : (place.any fun place => !place.path.isNull) = true
    · simp only [Fault.locate, Report.locate, Report.isLocated, hplace, if_true]
      exact .unresolvable _ _ _ _
    · simp only [Fault.locate, Report.locate, Report.isLocated, hplace]
      exact .unresolvable _ _ _ _

/-! ### Results -/

/-- The results are answers that are related, or faults of the same class. -/
inductive Corresponds {α β : Type} (R : α → β → Prop) : Except Fault α → Except Fault β → Prop
  | ok {a : α} {b : β} (h : R a b) : Corresponds R (.ok a) (.ok b)
  | error {f g : Fault} (h : f.SameClass g) : Corresponds R (.error f) (.error g)

namespace Corresponds

variable {α β γ δ : Type} {R : α → β → Prop} {Q : γ → δ → Prop} {x : Except Fault α}
  {y : Except Fault β}

theorem fault (fault : Fault) : Corresponds R (.error fault) (.error fault) :=
  .error (.refl fault)

theorem refl {R : α → α → Prop} (hR : ∀ a, R a a) (x : Except Fault α) : Corresponds R x x := by
  cases x with
  | error fault => exact .fault fault
  | ok a => exact .ok (hR a)

theorem bind {k : α → Except Fault γ} {l : β → Except Fault δ} (h : Corresponds R x y)
    (hk : ∀ a b, x = .ok a → R a b → Corresponds Q (k a) (l b)) :
    Corresponds Q (x >>= k) (y >>= l) := by
  cases h with
  | error h => exact .error h
  | ok h => exact hk _ _ rfl h

/-- The same result on both sides, followed by results that correspond. -/
theorem bind_right {k : α → Except Fault γ} {l : α → Except Fault δ}
    (hk : ∀ a, x = .ok a → Corresponds Q (k a) (l a)) : Corresponds Q (x >>= k) (x >>= l) := by
  cases x with
  | error fault => exact .fault fault
  | ok a => exact hk a rfl

/-- A result on one side and its image on the other one, followed by results that correspond. -/
theorem bind_map {f : α → β} {k : α → Except Fault γ} {l : β → Except Fault δ}
    (hk : ∀ a, x = .ok a → Corresponds Q (k a) (l (f a))) :
    Corresponds Q (x >>= k) (x.map f >>= l) := by
  cases x with
  | error fault => exact .fault fault
  | ok a => exact hk a rfl

theorem map (f : α → β) (x : Except Fault α) : Corresponds (fun a b => b = f a) x (x.map f) := by
  cases x with
  | error fault => exact .fault fault
  | ok a => exact .ok rfl

theorem ite {c : Prop} [Decidable c] {x' : Except Fault α} {y' : Except Fault β}
    (h : Corresponds R x y) (h' : Corresponds R x' y') :
    Corresponds R (if c then x else x') (if c then y else y') := by
  split_ifs
  · exact h
  · exact h'

theorem mono {R' : α → β → Prop} (h : Corresponds R x y) (hR : ∀ a b, x = .ok a → R a b → R' a b) :
    Corresponds R' x y := by
  cases h with
  | error h => exact .error h
  | ok h => exact .ok (hR _ _ rfl h)

/-- The results for related elements of two lists. -/
theorem mapM {f : α → Except Fault γ} {g : β → Except Fault δ} {as : List α} {bs : List β}
    (h : List.Forall₂ R as bs) (hf : ∀ {a b}, R a b → Corresponds Q (f a) (g b)) :
    Corresponds (List.Forall₂ Q) (as.mapM f) (bs.mapM g) := by
  induction h with
  | nil => exact .ok .nil
  | cons hab _ ih =>
    rw [List.mapM_cons, List.mapM_cons]
    exact (hf hab).bind fun _ _ _ hcd => ih.bind fun _ _ _ hrest => .ok (.cons hcd hrest)

end Corresponds

/-! ### Steps -/

/-- In every session the steps do the same, or fail with faults of the same class. -/
def Build.Corresponds {α : Type} (m m' : Build α) : Prop :=
  ∀ s, m s = m' s ∨ ∃ f g t t', m s = (.error f, t) ∧ m' s = (.error g, t') ∧ f.SameClass g

namespace Build.Corresponds

variable {α β γ : Type} {m m' : Build α} {k k' : α → Build β}

theorem refl (m : Build α) : Corresponds m m := fun _ => .inl rfl

theorem ite {c : Prop} [Decidable c] {l l' : Build α} (h : Corresponds m m')
    (h' : Corresponds l l') :
    Corresponds (if c then m else l) (if c then m' else l') := by
  split_ifs
  · exact h
  · exact h'

theorem bind (hm : Corresponds m m') (hk : ∀ a, Corresponds (k a) (k' a)) :
    Corresponds (m >>= k) (m' >>= k') := by
  intro s
  rcases hm s with hsame | ⟨f, g, t, t', hf, hg, hclass⟩
  · rcases hrun : m' s with ⟨fault | a, t⟩
    · exact .inl (by simp only [bind_apply, hsame, hrun])
    · rw [bind_apply, bind_apply, hsame, hrun]
      exact hk a t
  · exact .inr ⟨f, g, t, t', by simp only [bind_apply, hf], by simp only [bind_apply, hg], hclass⟩

/-- The same step on both sides, followed by steps that correspond. -/
theorem bind_right (hk : ∀ a, Corresponds (k a) (k' a)) : Corresponds (m >>= k) (m >>= k') :=
  (refl m).bind hk

theorem lift_bind {R : α → γ → Prop} {x : Except Fault α} {y : Except Fault γ} {l : γ → Build β}
    (hxy : ServiceContract.Corresponds R x y)
    (hk : ∀ a b, x = .ok a → R a b → Corresponds (k a) (l b)) :
    Corresponds ((liftM x : Build α) >>= k) ((liftM y : Build γ) >>= l) := by
  cases hxy with
  | error h => exact fun s => .inr ⟨_, _, s, s, rfl, rfl, h⟩
  | ok h => exact hk _ _ rfl h

theorem lift_bind_right {x : Except Fault α} (hk : ∀ a, x = .ok a → Corresponds (k a) (k' a)) :
    Corresponds ((liftM x : Build α) >>= k) ((liftM x : Build α) >>= k') :=
  lift_bind (R := Eq) (.refl (fun _ => rfl) x) fun a _ ha hab => hab ▸ hk a ha

/-- A result on one side and its image on the other one, followed by steps that correspond. -/
theorem lift_bind_map {f : α → γ} {x : Except Fault α} {l : γ → Build β}
    (hk : ∀ a, x = .ok a → Corresponds (k a) (l (f a))) :
    Corresponds ((liftM x : Build α) >>= k) ((liftM (x.map f) : Build γ) >>= l) :=
  lift_bind (.map f x) fun a _ ha hab => hab ▸ hk a ha

theorem whileResolving (hm : Corresponds m m') (ref : String) :
    Corresponds (Build.whileResolving ref m) (Build.whileResolving ref m') := by
  intro s
  rw [whileResolving_apply, whileResolving_apply]
  rcases hm { s with resolving := ref :: s.resolving } with hsame | ⟨f, g, t, t', hf, hg, hclass⟩
  · exact .inl (by rw [hsame])
  · exact .inr ⟨f, g, _, _, by rw [hf], by rw [hg], hclass⟩

/-- Faults of the same class get the same place. -/
theorem locating (hm : Corresponds m m') (httpMethod : String) (path : Scalar) (operation : Node) :
    Corresponds (ServiceContract.locating httpMethod path operation m)
      (ServiceContract.locating httpMethod path operation m') := by
  intro s
  unfold ServiceContract.locating
  rcases hm s with hsame | ⟨f, g, t, t', hf, hg, hclass⟩
  · exact .inl (by rw [hsame])
  · exact .inr ⟨_, _, t, t', by rw [hf], by rw [hg], hclass.locate httpMethod path _⟩

end Build.Corresponds

/-- The place of a fault depends on the identifier of the operation only. -/
theorem locating_congr {α : Type} {operation operation' : Node}
    (hid : (operation.get "operationId").map Node.toValue =
      (operation'.get "operationId").map Node.toValue)
    (httpMethod : String) (path : Scalar) (m : Build α) :
    locating httpMethod path operation m = locating httpMethod path operation' m := by
  funext s
  unfold locating
  cases hget : operation.get "operationId" with
  | error fault =>
    rw [hget] at hid
    cases hget' : operation'.get "operationId" with
    | error fault' => rfl
    | ok n =>
      rw [hget'] at hid
      cases hid
  | ok n =>
    rw [hget] at hid
    cases hget' : operation'.get "operationId" with
    | error fault' =>
      rw [hget'] at hid
      cases hid
    | ok n' =>
      rw [hget'] at hid
      have hvalue : n.toValue = n'.toValue := Except.ok.inj hid
      dsimp only
      rw [hvalue]

end ServiceContract
