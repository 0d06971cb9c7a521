import Mathlib.Logic.Relation
import ServiceContract.Proofs.Contract.Closure

/-!
# The order of the declarations

The declarations of a contract come dependencies first: what a declaration mentions stands in front
of it, or is the declaration itself. Types that mention each other in a cycle cannot all come first;
so a declaration mentions what stands behind it only if it is mentioned from there in turn.

## Main definitions

* `Contract.Mentions`: a declaration mentions another one of the contract.

## Main results

* `Contract.dependencies_first`: what a declaration mentions stands in front of it or leads to it.
-/

namespace ServiceContract

open Relation (TransGen)

/-- A declaration mentions another one, which the contract has. -/
def Contract.Mentions (c : Contract) (d e : Declaration) : Prop :=
  e ∈ c.declarations ∧ e.name ∈ d.mentioned

/-- A declaration that is needed by a name has that name, or a declaration with the name leads to
it. -/
theorem Needed.eq_or_transGen {c : Contract} {n m : String} (h : Needed c.declarations (· = n) m)
    {d : Declaration} (hd : d ∈ c.declarations) (hm : d.name = m) :
    m = n ∨ ∃ e ∈ c.declarations, e.name = n ∧ TransGen c.Mentions e d := by
  induction h generalizing d with
  | root h => exact .inl h
  | @mentioned e m he h hn ih =>
    have hstep : c.Mentions e d := ⟨hd, hm ▸ hn⟩
    rcases ih he rfl with heq | ⟨e', he', heq, hchain⟩
    · exact .inr ⟨e, he, heq, .single hstep⟩
    · exact .inr ⟨e', he', heq, hchain.tail hstep⟩

namespace Contract

/-- The declarations stand in order, and know nothing beforehand. -/
theorem inOrder_declarations {doc : Document} {options : Options} {c : Contract}
    (h : build doc options = .ok c) : InOrder (fun _ => False) c.declarations := by
  obtain ⟨name, title, version, start, paths, s, -, -, -, hstart, -, hrun, rfl⟩ :=
    build_eq_ok_iff.mp h
  exact (buildPaths_closed (Session.start_closed hstart) hrun).ordered

/-- What a declaration mentions is declared at its place or in front of it, or else a declaration
with that name leads to it, through what declarations mention. -/
theorem dependencies_first {doc : Document} {options : Options} {c : Contract}
    (h : build doc options = .ok c) {i : ℕ} {d : Declaration} (hd : c.declarations[i]? = some d)
    {n : String} (hn : n ∈ d.mentioned) :
    (∃ j ≤ i, ∃ e, c.declarations[j]? = some e ∧ e.name = n) ∨
      ∃ e ∈ c.declarations, e.name = n ∧ TransGen c.Mentions e d := by
  obtain ⟨hi, hget⟩ := List.getElem?_eq_some_iff.mp hd
  have hsplit : c.declarations = c.declarations.take i ++ d :: c.declarations.drop (i + 1) := by
    rw [← hget, List.getElem_cons_drop, List.take_append_drop]
  rcases inOrder_declarations h hsplit n hn with hfalse | hfront | hneeded
  · exact hfalse.elim
  · obtain ⟨e, he, rfl⟩ := List.mem_map.mp hfront
    rw [← hget, ← List.take_succ_eq_append_getElem hi] at he
    obtain ⟨j, hj, hej⟩ := List.mem_take_iff_getElem.mp he
    exact .inl ⟨j, by omega, e, List.getElem?_eq_some_iff.mpr ⟨by omega, hej⟩, rfl⟩
  · rcases hneeded.eq_or_transGen (List.mem_of_getElem? hd) rfl with heq | hchain
    · exact .inl ⟨i, Nat.le_refl i, d, hd, heq⟩
    · exact .inr hchain

/-- Of two records that mention each other the first one mentions what stands behind it. -/
theorem dependencies_first_mutualRecords :
    ∃ c d, build mutualRecords .standard = .ok c ∧ c.declarations[0]? = some d ∧
      d.name = "Pet" ∧ "Owner" ∈ d.mentioned ∧
      ∃ e ∈ c.declarations, e.name = "Owner" ∧ TransGen c.Mentions e d := by
  have hrun : (build mutualRecords .standard).map
      (fun c => c.declarations.map fun d => (d.name, d.mentioned)) =
        .ok [("Pet", ["Owner"]), ("Owner", ["Pet"])] := by
    rfl
  cases h : build mutualRecords .standard with
  | error fault =>
    rw [h] at hrun
    cases hrun
  | ok c =>
    rw [h] at hrun
    obtain ⟨d, ds, hds, hpair, -⟩ := List.map_eq_cons_iff.mp (Except.ok.inj hrun)
    obtain ⟨hname, hmentioned⟩ := Prod.mk.inj hpair
    have hd : c.declarations[0]? = some d := by rw [hds, List.getElem?_cons_zero]
    have hn : "Owner" ∈ d.mentioned := hmentioned ▸ List.mem_singleton.mpr rfl
    refine ⟨c, d, rfl, hd, hname, hn, (dependencies_first h hd hn).resolve_left ?_⟩
    rintro ⟨j, hj, e, he, howner⟩
    rw [Nat.le_zero.mp hj, hd] at he
    cases he
    exact absurd (hname.symm.trans howner) (by decide)

end Contract

end ServiceContract
