import ServiceContract.Proofs.Session.Run

/-!
# Invariants of sessions

What holds of sessions from step to step, together with what the values of steps are: from a session
with the invariant a step that succeeds leaves one with the invariant behind, and its value has a
property that the next step may count on. A step that fails promises nothing.

## Main definitions

* `Build.Keeps`: a step keeps an invariant and gives values with a property.

## Main results

* `Build.Keeps.bind`, `Build.Keeps.lift_bind`: composed steps.
-/

namespace ServiceContract.Build

variable {α β : Type} {I : Session → Prop} {P Q : α → Prop}

/-- If the step succeeds from a session with the invariant `I`, the session afterwards has it as
well, and the value has the property `Q`. -/
def Keeps (I : Session → Prop) (Q : α → Prop) (m : Build α) : Prop :=
  ∀ ⦃s a t⦄, m s = (.ok a, t) → I s → I t ∧ Q a

namespace Keeps

theorem pure {a : α} (h : Q a) : Keeps I Q (Pure.pure a) := by
  intro s b t hrun hs
  obtain ⟨rfl, rfl⟩ := pure_eq_ok.mp hrun
  exact ⟨hs, h⟩

theorem fail (fault : Fault) : Keeps I Q (Build.fail fault) := nofun

theorem bind {m : Build α} {k : α → Build β} {Q : β → Prop} (hm : Keeps I P m)
    (hk : ∀ a, P a → Keeps I Q (k a)) : Keeps I Q (m >>= k) := by
  intro s b u hrun hs
  obtain ⟨a, t, hrun, hrest⟩ := bind_eq_ok.mp hrun
  obtain ⟨ht, ha⟩ := hm hrun hs
  exact hk a ha hrest ht

theorem lift_bind {x : Except Fault α} {k : α → Build β} {Q : β → Prop}
    (hk : ∀ a, x = .ok a → Keeps I Q (k a)) : Keeps I Q ((liftM x : Build α) >>= k) := by
  intro s b t hrun hs
  obtain ⟨a, ha, hrest⟩ := lift_bind_eq_ok.mp hrun
  exact hk a ha hrest hs

/-- A change of the session that respects the invariant. -/
theorem modify {f : Session → Session} (h : ∀ s, I s → I (f s)) :
    Keeps I (fun _ => True) (Build.modify f) := by
  rintro s _ _ ⟨⟩ hs
  exact ⟨h s hs, trivial⟩

theorem mono {m : Build α} (h : Keeps I P m) (hq : ∀ a, P a → Q a) :
    Keeps I Q m := fun _ a _ hrun hs =>
  (h hrun hs).imp_right (hq a)

end Keeps

end ServiceContract.Build
