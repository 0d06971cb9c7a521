import Mathlib.Tactic.SplitIfs
import ServiceContract.Proofs.Session.Run

/-!
# Names with a capital initial

A name in Pascal case starts with a capital letter, with a letter that has no case, or with a digit,
but never with one of the small letters from `a` to `z`. The number that tells a name apart from
others stands behind it, so that the initial stays as it is.

## Main definitions

* `Naming.Capitalized`: names that are not empty and start with no small letter.

## Main results

* `Text.upperChar_eq_cons`: the initial of a character in upper case.
* `Naming.capitalized_nonEmpty_pascal`, `Naming.Capitalized.freshName`: the names that types get.
-/

namespace ServiceContract

namespace Text

/-! ### Upper case -/

/-- The small letters of the alphabet are the characters from `a` to `z`. -/
theorem le_of_isLower_ofNat {n : Nat} (h : (Char.ofNat n).isLower = true) : 97 ≤ n ∧ n ≤ 122 := by
  unfold Char.ofNat at h
  by_cases hvalid : n.isValidChar
  · rw [dif_pos hvalid] at h
    obtain ⟨hfirst, hlast⟩ := (Bool.and_eq_true _ _).mp h
    exact ⟨UInt32.le_iff_toNat_le.mp (of_decide_eq_true hfirst),
      UInt32.le_iff_toNat_le.mp (of_decide_eq_true hlast)⟩
  · rw [dif_neg hvalid] at h
    exact absurd h (by decide)

theorem isLower_toUpper_of_lt {c : Char} (h : c.toNat < 128) : c.toUpper.isLower = false := by
  have hall : ∀ n < 128, (Char.ofNat n).toUpper.isLower = false := by decide
  have hupper := hall c.toNat h
  rwa [Char.ofNat_toNat] at hupper

/-- No character that becomes several has a small letter of the alphabet in front then. -/
theorem exists_cons_of_mem_upperExpansions {e : Nat × List Nat} (he : e ∈ upperExpansions) :
    ∃ k ks, e.2 = k :: ks ∧ (k < 97 ∨ 122 < k) := by
  have hall : upperExpansions.all (fun e => e.2.head?.any fun k => decide (k < 97 ∨ 122 < k)) =
      true := by
    decide
  have h := List.all_eq_true.mp hall e he
  rcases e with ⟨n, _ | ⟨k, ks⟩⟩
  · cases h
  · exact ⟨k, ks, rfl, of_decide_eq_true h⟩

/-- No run of characters goes to small letters of the alphabet. -/
theorem lt_of_mem_upperRuns :
    ∀ run ∈ upperRuns, run.last + run.shift < 97 ∨ 122 < run.first + run.shift := by
  decide +kernel

/-- A character in upper case starts with no small letter of the alphabet. -/
theorem upperChar_eq_cons (c : Char) : ∃ d ds, upperChar c = d :: ds ∧ d.isLower = false := by
  rw [upperChar]
  split_ifs with hascii
  · exact ⟨c.toUpper, [], rfl, isLower_toUpper_of_lt hascii⟩
  rw [mapCase]
  split
  · rename_i codes hcodes
    obtain ⟨k, ks, rfl, hk⟩ := exists_cons_of_mem_upperExpansions (mem_of_lookup hcodes)
    refine ⟨Char.ofNat k, ks.map Char.ofNat, rfl, Bool.eq_false_iff.mpr fun hlower => ?_⟩
    have hrange := le_of_isLower_ofNat hlower
    omega
  · split
    · rename_i run hrun
      refine ⟨_, [], rfl, Bool.eq_false_iff.mpr fun hlower => ?_⟩
      have hrange := le_of_isLower_ofNat hlower
      have hapart := lt_of_mem_upperRuns run (List.mem_of_find?_eq_some hrun)
      have hhas := List.find?_some hrun
      simp only [CaseRun.has, Bool.and_eq_true, decide_eq_true_eq] at hhas
      omega
    · refine ⟨c, [], rfl, Bool.eq_false_iff.mpr fun hlower => ?_⟩
      have hrange := le_of_isLower_ofNat (n := c.toNat) (by rwa [Char.ofNat_toNat])
      omega

/-- Words with capital initials, one after the other, start with no small letter of the alphabet. -/
theorem flatMap_upperFirst (words : List (List Char)) :
    words.flatMap upperFirst = [] ∨
      ∃ c cs, words.flatMap upperFirst = c :: cs ∧ c.isLower = false := by
  induction words with
  | nil => exact .inl rfl
  | cons word words ih =>
    rw [List.flatMap_cons]
    cases word with
    | nil => exact ih
    | cons c cs =>
      obtain ⟨d, ds, hd, hlower⟩ := upperChar_eq_cons c
      rw [upperFirst, hd]
      exact .inr ⟨d, _, rfl, hlower⟩

end Text

namespace Naming

/-! ### Names of types -/

/-- The name is not empty and starts with none of the small letters of the alphabet. -/
def Capitalized (name : String) : Prop :=
  ∃ c cs, name.toList = c :: cs ∧ c.isLower = false

theorem Capitalized.append {name : String} (h : Capitalized name) (ending : String) :
    Capitalized (name ++ ending) := by
  obtain ⟨c, cs, hname, hlower⟩ := h
  exact ⟨c, cs ++ ending.toList, by rw [String.toList_append, hname, List.cons_append], hlower⟩

/-- A name in Pascal case is capitalized unless it is empty, where another one takes its place. -/
theorem capitalized_nonEmpty_pascal (name : String) {default : String} (h : Capitalized default) :
    Capitalized (Build.nonEmpty (pascal name) default) := by
  rw [Build.nonEmpty]
  split_ifs with hempty
  · exact h
  · rcases Text.flatMap_upperFirst (words name.toList) with hnil | ⟨c, cs, hcons, hlower⟩
    · exact absurd (by rw [pascal, pascalChars, hnil]; rfl) hempty
    · exact ⟨c, cs, by rw [pascal, pascalChars, String.toList_ofList, hcons], hlower⟩

/-- The number behind a name leaves it capitalized. -/
theorem Capitalized.freshName {base : String} (h : Capitalized base) (taken : List String) :
    Capitalized (freshName "" taken base) := by
  have hnumbered (k : Nat) : Capitalized (numbered "" base k) := by
    cases k with
    | zero => exact h
    | succ k => exact (h.append "").append _
  exact hnumbered _

end Naming

end ServiceContract
