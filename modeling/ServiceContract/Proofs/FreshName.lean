import Mathlib.Data.List.Nodup
import Mathlib.Data.List.Perm.Subperm
import ServiceContract.FreshName

/-!
# Fresh names are free

The spellings of a name are all different, so that one of the first `n + 1` is free if `n` names are
taken.

## Main results

* `numbered_injective`: different numbers give different spellings.
* `freshName_not_mem`: a fresh name is not taken.
* `freshName_of_not_mem`: a name that is free is kept.
* `freshName_of_subset`: a fresh name does not depend on other names that are taken.
-/

namespace ServiceContract

theorem numbered_injective (separator base : String) :
    Function.Injective (numbered separator base) := by
  have hlist (k : Nat) : (numbered separator base (k + 1)).toList =
      base.toList ++ separator.toList ++ Nat.toDigits 10 (k + 2) := by
    simp [numbered]
  have hne (k : Nat) : numbered separator base (k + 1) ≠ base := by
    intro h
    have h := congrArg (fun s => s.toList.length) h
    have hpos : 0 < (Nat.toDigits 10 (k + 2)).length := Nat.length_toDigits_pos
    simp only [hlist, List.length_append] at h
    omega
  intro i j h
  match i, j with
  | 0, 0 => rfl
  | 0, j + 1 => exact absurd h.symm (hne j)
  | i + 1, 0 => exact absurd h (hne i)
  | i + 1, j + 1 =>
    have h := congrArg String.toList h
    rw [hlist, hlist] at h
    have h := congrArg (Nat.ofDigitChars 10 · 0) (List.append_cancel_left h)
    simpa using h

/-- A fresh name is the first spelling that is not taken. -/
theorem exists_freshName (separator : String) (taken : List String) (base : String) :
    ∃ k, freshName separator taken base = numbered separator base k ∧
      numbered separator base k ∉ taken ∧
      ∀ i < k, numbered separator base i ∈ taken := by
  rw [freshName]
  cases hfind : (List.range (taken.length + 1)).find?
      fun k => !taken.contains (numbered separator base k) with
  | some k =>
    obtain ⟨hfree, -, hleast⟩ := List.find?_range_eq_some.mp hfind
    exact ⟨k, rfl, by simpa using hfree, fun i hi => by simpa using hleast i hi⟩
  | none =>
    -- Otherwise the taken names would have one more different name among them than they are.
    have hsub : (List.range (taken.length + 1)).map (numbered separator base) ⊆ taken := by
      intro name hname
      obtain ⟨k, hk, rfl⟩ := List.mem_map.mp hname
      simpa using List.find?_eq_none.mp hfind k hk
    have hnodup := List.Nodup.map (numbered_injective separator base)
      (List.nodup_range (n := taken.length + 1))
    have hle := (List.subperm_of_subset hnodup hsub).length_le
    rw [List.length_map, List.length_range] at hle
    exact absurd hle (Nat.not_succ_le_self _)

/-- A fresh name is not taken. -/
theorem freshName_not_mem (separator : String) (taken : List String) (base : String) :
    freshName separator taken base ∉ taken := by
  obtain ⟨k, hname, hfree, -⟩ := exists_freshName separator taken base
  rwa [hname]

/-- A name that is not taken is fresh as it is. -/
theorem freshName_of_not_mem {separator base : String} {taken : List String} (h : base ∉ taken) :
    freshName separator taken base = base := by
  obtain ⟨k, hname, -, hleast⟩ := exists_freshName separator taken base
  cases k with
  | zero => exact hname
  | succ k => exact absurd (hleast 0 (Nat.succ_pos k)) h

/-- A name that is fresh stays fresh when other names are taken besides. -/
theorem freshName_of_subset {separator base : String} {taken taken' : List String}
    (h : taken ⊆ taken') (hfree : freshName separator taken base ∉ taken') :
    freshName separator taken' base = freshName separator taken base := by
  obtain ⟨k, hname, hk, hleast⟩ := exists_freshName separator taken base
  obtain ⟨k', hname', hk', hleast'⟩ := exists_freshName separator taken' base
  rw [hname] at hfree ⊢
  rw [hname']
  rcases Nat.lt_trichotomy k k' with hlt | rfl | hlt
  · exact absurd (hleast' k hlt) hfree
  · rfl
  · exact absurd (h (hleast k' hlt)) hk'

end ServiceContract
