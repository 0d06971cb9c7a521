import ServiceContract.Proofs.Contract.Run
import ServiceContract.Proofs.Operation.Parallel
import ServiceContract.Proofs.Schema.Complete
import ServiceContract.Proofs.Schema.Lag

/-!
# Operations that succeed

What holds for resolutions that succeed holds for operations: all that they meet is complete
afterwards, whatever is met again stays within what is known then, and an operation that succeeds in
a session that lags behind another one succeeds in the latter too.

## Main results

* `Build.Parallel.completes`, `Build.Parallel.within`: what an operation that succeeds leaves
  behind, and what taking it again can do then.
* `Build.Parallel.follows`: operations follow those that lag behind.
-/

namespace ServiceContract

/-- The place that a report gets leaves its cause as it is. -/
theorem Report.cause_locate (report : Report) (httpMethod : Option String)
    (path operationId : Value) :
    (report.locate httpMethod path operationId).cause = report.cause := by
  rw [locate]
  by_cases h : report.isLocated = true
  · rw [if_pos h]
  · rw [if_neg h]

namespace Build

variable {α : Type} {r : Resolver} {D : Origin → Prop} {m m' : Build α} {s t : Session}

/-- A step stays within a set also if its faults get a place. -/
theorem Within.locating (h : Within D m) (httpMethod : String) (path : Scalar) (operation : Node) :
    Within D (ServiceContract.locating httpMethod path operation m) := by
  intro s
  have hs := h s
  unfold ServiceContract.locating
  rcases hrun : m s with ⟨fault | a, t⟩
  · rw [hrun] at hs
    refine ⟨hs.1, fun fault' hfault => ?_⟩
    cases hfault
    have hcircular := hs.2 fault rfl
    cases fault with
    | reported report =>
      obtain ⟨schema, hcause⟩ := hcircular
      exact ⟨schema, (Report.cause_locate ..).trans hcause⟩
    | _ => exact hcircular
  · rwa [hrun] at hs

namespace Parallel

/-- All that an operation that succeeds has met is complete afterwards. -/
theorem completes (h : Parallel r r.doc.Part m m') {a : α} (hm : m s = (.ok a, t)) :
    r.Completes s t := by
  induction h generalizing s t with
  | pure a b =>
    obtain ⟨-, rfl⟩ := pure_eq_ok.mp hm
    exact .refl _
  | fail fault => cases hm
  | notes h h' =>
    obtain ⟨events, hrun⟩ := h.apply s
    rw [hrun] at hm
    cases hm
    exact (Resolver.Completes.refl _).congr fun _ => Session.knows_congr rfl rfl
  | addMethod m m' =>
    cases hm
    exact (Resolver.Completes.refl _).congr fun _ => Session.knows_congr rfl rfl
  | resolve h hint => exact (Resolver.resolveWithin_completes h hm).1
  | locating httpMethod path operation h ih => exact ih (locating_eq_ok.mp hm)
  | bind h hk ih ihk =>
    obtain ⟨b, u, hb, hm⟩ := bind_eq_ok.mp hm
    exact (ih hb).trans (ihk b b hm)

/-- An operation that has succeeded once stays within what is known then, wherever it is taken
again. -/
theorem within (h : Parallel r r.doc.Part m m') (hdoc : r.doc.Addressed)
    (hclosed : ∀ o, D o → r.Complete D o) {a : α} (hm : m s = (.ok a, t))
    (ht : ∀ o, t.Knows o → D o) : Within D m' := by
  induction h generalizing s t with
  | pure a b => exact .pure b
  | fail fault => cases hm
  | notes h h' =>
    intro s
    obtain ⟨events, hrun⟩ := h'.apply s
    rw [hrun]
    exact ⟨fun o ho => .inl ((Session.knows_congr rfl rfl).mp ho),
      fun fault hfault => by cases hfault⟩
  | addMethod m m' =>
    refine .of_knows (fun s o ho => ?_) fun s => ⟨(), rfl⟩
    exact .inl ((Session.knows_congr rfl rfl).mp ho)
  | resolve h hint =>
    have hcovered := (Resolver.resolveWithin_completes h hm).2
    exact Resolver.resolveWithin_within hdoc hclosed _ h (hcovered.mono ht) hint
  | locating httpMethod path operation h ih =>
    exact (ih (locating_eq_ok.mp hm) ht).locating httpMethod path operation
  | bind h hk ih ihk =>
    obtain ⟨b, u, hb, hm⟩ := bind_eq_ok.mp hm
    have hkept := (hk b b).completes hm
    exact (ih hb fun o ho => ht o (hkept.kept ho)).bind fun c => ihk b c hm ht

/-- An operation follows another run of it that lags behind by a closed set. -/
theorem follows (h : Parallel r r.doc.Part m m') (hdoc : r.doc.Addressed)
    (hclosed : ∀ o, D o → r.Complete D o) : Follows D m m' := by
  induction h with
  | pure a b => exact .pure a b
  | fail fault =>
    intro a b _ x t hm
    cases hm
  | notes h h' =>
    intro a b hlags x t hm
    obtain ⟨events, hrun⟩ := h.apply a
    obtain ⟨events', hrun'⟩ := h'.apply b
    rw [hrun] at hm
    cases hm
    exact ⟨(), _, hrun', hlags.congr (Session.knows_congr rfl rfl) (Session.knows_congr rfl rfl)
      hlags.resolving⟩
  | addMethod m m' =>
    intro a b hlags x t hm
    cases hm
    exact ⟨(), _, rfl, hlags.congr (Session.knows_congr rfl rfl) (Session.knows_congr rfl rfl)
      hlags.resolving⟩
  | resolve h hint => exact Resolver.resolveWithin_follows hdoc hclosed _ h hint hint
  | locating httpMethod path operation h ih =>
    intro a b hlags x t hm
    obtain ⟨y, u, hrun, ht⟩ := ih hlags (locating_eq_ok.mp hm)
    exact ⟨y, u, locating_eq_ok.mpr hrun, ht⟩
  | bind h hk ih ihk => exact .bind ih ihk

end Parallel

end Build

end ServiceContract
