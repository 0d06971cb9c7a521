import Mathlib.Tactic.SplitIfs
import ServiceContract.Text.Replace

/-!
# Texts in parts

A text that is joined from parts splits into them again if the separator is in none of them.

## Main results

* `intercalate_cons`: joined parts, the first one apart.
* `filter_intercalate`: joined parts without their separators.
* `splitAt_append_cons`, `splitAt_intercalate`: the parts of a text.
-/

namespace ServiceContract.Text

/-- There is at least one part. -/
theorem splitAt_ne_nil (separator : Char) (s : List Char) : splitAt separator s ≠ [] := by
  cases s with
  | nil => exact List.cons_ne_nil _ _
  | cons c cs =>
    rw [splitAt]
    split_ifs
    · exact List.cons_ne_nil _ _
    · split
      · exact List.cons_ne_nil _ _
      · exact List.cons_ne_nil _ _

section Parts

variable {separator : Char} {part : List Char}

theorem splitAt_of_notMem (h : separator ∉ part) : splitAt separator part = [part] := by
  induction part with
  | nil => rfl
  | cons c part ih =>
    obtain ⟨hne, hpart⟩ := not_or.mp (fun hmem => h (List.mem_cons.mpr hmem))
    rw [splitAt, if_neg (Ne.symm hne), ih hpart]

/-- What stands before the first separator is the first part. -/
theorem splitAt_append_cons (h : separator ∉ part) (rest : List Char) :
    splitAt separator (part ++ separator :: rest) = part :: splitAt separator rest := by
  induction part with
  | nil => rw [List.nil_append, splitAt, if_pos rfl]
  | cons c part ih =>
    obtain ⟨hne, hpart⟩ := not_or.mp (fun hmem => h (List.mem_cons.mpr hmem))
    rw [List.cons_append, splitAt, if_neg (Ne.symm hne), ih hpart]

end Parts

/-- Joined parts begin with the first one, and each other one has the separator in front. -/
theorem intercalate_cons (separator part : List Char) (parts : List (List Char)) :
    separator.intercalate (part :: parts) = part ++ parts.flatMap (separator ++ ·) := by
  induction parts generalizing part with
  | nil => simp
  | cons next parts ih =>
    rw [List.intercalate_cons_cons, ih, List.flatMap_cons, List.append_assoc, List.append_assoc]

/-- What is kept of joined parts, if all of the parts is kept and nothing of the separator. -/
theorem filter_intercalate {p : Char → Bool} {separator : List Char} {parts : List (List Char)}
    (hseparator : separator.filter p = []) (h : ∀ part ∈ parts, ∀ c ∈ part, p c = true) :
    (separator.intercalate parts).filter p = parts.flatten := by
  induction parts with
  | nil => rfl
  | cons part parts ih =>
    obtain ⟨hpart, hparts⟩ := List.forall_mem_cons.mp h
    have hkept : part.filter p = part := List.filter_eq_self.mpr hpart
    cases parts with
    | nil => simp [hkept]
    | cons next parts => simp [List.intercalate_cons_cons, hseparator, hkept, ih hparts]

/-- Parts without the separator are joined and split again. -/
theorem splitAt_intercalate {separator : Char} {parts : List (List Char)} (hne : parts ≠ [])
    (h : ∀ part ∈ parts, separator ∉ part) :
    splitAt separator ([separator].intercalate parts) = parts := by
  induction parts with
  | nil => exact absurd rfl hne
  | cons part parts ih =>
    obtain ⟨hpart, hparts⟩ := List.forall_mem_cons.mp h
    cases parts with
    | nil => rw [List.intercalate_singleton, splitAt_of_notMem hpart]
    | cons next parts =>
      rw [List.intercalate_cons_cons, List.append_assoc, List.singleton_append,
        splitAt_append_cons hpart, ih (List.cons_ne_nil next parts) hparts]

end ServiceContract.Text
