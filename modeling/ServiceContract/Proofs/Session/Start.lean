import ServiceContract.Proofs.Session.Run

/-!
# The session at the start

At the start the names of the components are taken, and nothing else has been done.

## Main results

* `Session.start_eq`: what the session holds at the start.
-/

namespace ServiceContract

namespace Session

open Build

/-- Taking the names of components changes nothing but the names that are taken and those that the
components have. -/
theorem claimComponents_apply (keys : List Node) (s : Session) :
    ∃ result taken components,
      claimComponents keys s = (result, { s with taken, components }) := by
  induction keys generalizing s with
  | nil => exact ⟨_, _, _, rfl⟩
  | cons key keys ih =>
    rw [claimComponents, bind_apply, lift_apply]
    cases key.asText with
    | error fault => exact ⟨_, _, _, rfl⟩
    | ok text =>
      obtain ⟨result, taken, components, h⟩ := ih (claimComponent text s).2
      exact ⟨result, taken, components, h⟩

theorem start_eq_ok {doc : Document} {s : Session} (h : start doc = .ok s) :
    ∃ keys, componentNodes doc = .ok keys ∧ claimComponents keys blank = (.ok (), s) := by
  unfold start at h
  split at h
  · rename_i t hrun
    obtain ⟨keys, hkeys, hrun⟩ := lift_bind_eq_ok.mp hrun
    cases h
    exact ⟨keys, hkeys, hrun⟩
  · cases h

/-- At the start nothing has been done but taking the names of the components. -/
theorem start_eq {doc : Document} {s : Session} (h : start doc = .ok s) :
    s = { blank with taken := s.taken, components := s.components } := by
  obtain ⟨keys, -, hrun⟩ := start_eq_ok h
  obtain ⟨result, taken, components, hrun'⟩ := claimComponents_apply keys blank
  rw [hrun'] at hrun
  cases hrun
  rfl

end Session

end ServiceContract
