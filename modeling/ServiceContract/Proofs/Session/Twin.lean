import ServiceContract.Proofs.Document.Alike
import ServiceContract.Proofs.Session.Run

/-!
# Steps in two sessions

Two steps are taken side by side, each in a session of its own. They are *twins* for a relation
between sessions and one between values if they come out alike whenever their sessions are related:
both fail with the same fault, or both give values, which are related; and the sessions that they
leave behind are related again. Twins are put together along `bind`, and nothing is lost when they
fail.

## Main definitions

* `Build.Twins`: two steps that come out alike.

## Main results

* `Build.Twins.bind`, `Build.Twins.lift_bind`: composed steps are twins if their parts are.
-/

namespace ServiceContract

namespace Build

variable {α β : Type}

/-- From related sessions, the two steps fail alike or give related values, and leave related
sessions behind. -/
def Twins (S : Session → Session → Prop) (R : α → α → Prop) (m m' : Build α) : Prop :=
  ∀ ⦃s t⦄, S s t → Matches R (m s).1 (m' t).1 ∧ S (m s).2 (m' t).2

namespace Twins

variable {S : Session → Session → Prop} {R : α → α → Prop} {Q : β → β → Prop}

theorem pure {a b : α} (h : R a b) : Twins S R (Pure.pure a) (Pure.pure b) :=
  fun _ _ hs => ⟨.ok h, hs⟩

theorem fail (fault : Fault) : Twins S R (Build.fail fault) (Build.fail fault) :=
  fun _ _ hs => ⟨.error fault, hs⟩

theorem bind {m m' : Build α} {k k' : α → Build β} (hm : Twins S R m m')
    (hk : ∀ a b, R a b → Twins S Q (k a) (k' b)) : Twins S Q (m >>= k) (m' >>= k') := by
  intro s t hs
  obtain ⟨hresult, hsession⟩ := hm hs
  rw [bind_apply, bind_apply]
  rcases hrun : m s with ⟨result, s₁⟩
  rcases hrun' : m' t with ⟨result', t₁⟩
  rw [hrun, hrun'] at hresult hsession
  cases hresult with
  | error fault => exact ⟨.error fault, hsession⟩
  | ok hab => exact hk _ _ hab hsession

/-- Results that do not depend on the session, followed by twins. -/
theorem lift_bind {x y : Except Fault α} {k k' : α → Build β} (hxy : Matches R x y)
    (hk : ∀ a b, R a b → Twins S Q (k a) (k' b)) :
    Twins S Q ((liftM x : Build α) >>= k) ((liftM y : Build α) >>= k') :=
  bind (R := R) (fun _ _ hs => ⟨hxy, hs⟩) hk

/-- The same result on both sides, followed by twins. -/
theorem lift_bind_right {x : Except Fault α} {k k' : α → Build β}
    (hk : ∀ a, Twins S Q (k a) (k' a)) :
    Twins S Q ((liftM x : Build α) >>= k) ((liftM x : Build α) >>= k') := by
  refine lift_bind (R := Eq) (.refl (fun _ => rfl) x) fun a b hab => ?_
  subst hab
  exact hk a

/-- Twins whose values are the same go on with the same value. -/
theorem bind_eq {m m' : Build α} {k k' : α → Build β} (hm : Twins S Eq m m')
    (hk : ∀ a, Twins S Q (k a) (k' a)) : Twins S Q (m >>= k) (m' >>= k') := by
  refine hm.bind fun a b hab => ?_
  subst hab
  exact hk a

/-- A step that only changes the session, on either side. -/
theorem modify {f g : Session → Session} (h : ∀ ⦃s t⦄, S s t → S (f s) (g t)) :
    Twins S Eq (Build.modify f) (Build.modify g) :=
  fun _ _ hs => ⟨.ok rfl, h hs⟩

/-- A part of the session, on either side. -/
theorem read {f : Session → α} (h : ∀ ⦃s t⦄, S s t → R (f s) (f t)) :
    Twins S R (Build.read f) (Build.read f) :=
  fun _ _ hs => ⟨.ok (h hs), hs⟩

/-- Steps with a reference in progress, which is the same on both sides before and after. -/
theorem whileResolving {m m' : Build α} (hm : Twins S R m m') (ref : String)
    (hadd : ∀ ⦃s t⦄, S s t →
      S { s with resolving := ref :: s.resolving } { t with resolving := ref :: t.resolving })
    (herase : ∀ ⦃s t⦄, S s t →
      S { s with resolving := s.resolving.erase ref }
        { t with resolving := t.resolving.erase ref }) :
    Twins S R (Build.whileResolving ref m) (Build.whileResolving ref m') := by
  intro s t hs
  rw [whileResolving_apply, whileResolving_apply]
  obtain ⟨hresult, hsession⟩ := hm (hadd hs)
  exact ⟨hresult, herase hsession⟩

end Twins

end Build

end ServiceContract
