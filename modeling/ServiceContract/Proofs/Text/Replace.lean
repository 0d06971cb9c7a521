import Mathlib.Data.List.DropRight
import ServiceContract.Text.Blank
import ServiceContract.Text.Replace

/-!
# Texts after replacements

A reader that goes through a text character by character comes to the same end if it cannot tell a
pattern from what is put in its place, and so it does for a text in which the pattern is replaced.
The same holds for runs of blanks, if it takes them for single spaces, and for blanks at both ends,
if they do not matter to it.

## Main definitions

* `Replaced`: a text with the occurrences of a pattern replaced.

## Main results

* `replaced_replaceAll`, `Replaced.eq`: the text that is made by replacing a pattern from left to
  right.
* `foldl_replaceAll`, `foldl_singleSpaced`, `foldl_trimmed`: readers of such texts.
-/

namespace ServiceContract.Text

/-! ### Replacements -/

/-- The second text is the first one with a pattern replaced: where the text goes on with the
pattern, what is put in stands for it, and elsewhere the next character is kept. -/
inductive Replaced (pattern replacement : List Char) : List Char → List Char → Prop
  | nil : Replaced pattern replacement [] []
  | replace {s t : List Char} (h : Replaced pattern replacement s t) :
    Replaced pattern replacement (pattern ++ s) (replacement ++ t)
  | keep {c : Char} {s t : List Char} (hc : ¬ pattern <+: c :: s)
    (h : Replaced pattern replacement s t) :
    Replaced pattern replacement (c :: s) (c :: t)

section Replace

variable {pattern replacement : List Char}

theorem replaceAfter_eq_replaceAll (skip : ℕ) (s : List Char) :
    replaceAfter pattern replacement skip s = replaceAll pattern replacement (s.drop skip) := by
  induction skip generalizing s with
  | zero => rfl
  | succ skip ih =>
    cases s with
    | nil => rfl
    | cons c s => exact ih s

theorem replaceAll_append (hp : pattern ≠ []) (s : List Char) :
    replaceAll pattern replacement (pattern ++ s) = replacement ++
      replaceAll pattern replacement s := by
  cases pattern with
  | nil => exact absurd rfl hp
  | cons c pattern =>
    rw [replaceAll, List.cons_append, replaceAfter, if_pos, replaceAfter_eq_replaceAll]
    · rw [List.length_cons, Nat.add_sub_cancel, List.drop_left]
    · exact List.isPrefixOf_iff_prefix.mpr (List.prefix_append (c :: pattern) s)

theorem replaceAll_cons {c : Char} {s : List Char} (hc : ¬ pattern <+: c :: s) :
    replaceAll pattern replacement (c :: s) = c :: replaceAll pattern replacement s := by
  rw [replaceAll, replaceAfter, if_neg (mt List.isPrefixOf_iff_prefix.mp hc)]
  rfl

/-- A pattern that is a character is replaced at each of its occurrences. -/
theorem replaceAll_singleton (p : Char) (s : List Char) :
    replaceAll [p] replacement s = s.flatMap fun c => if c = p then replacement else [c] := by
  induction s with
  | nil => rfl
  | cons c s ih =>
    rw [List.flatMap_cons, ← ih]
    split_ifs with hc
    · rw [hc]
      exact replaceAll_append (List.cons_ne_nil p []) s
    · exact replaceAll_cons fun h => hc (List.cons_prefix_cons.mp h).1.symm

variable (replacement) in
/-- Replacing a pattern from left to right makes a text in which it is replaced. -/
theorem replaced_replaceAll (hp : pattern ≠ []) (s : List Char) :
    Replaced pattern replacement s (replaceAll pattern replacement s) := by
  induction hn : s.length using Nat.strongRecOn generalizing s with
  | ind n ih =>
    cases s with
    | nil => exact .nil
    | cons c s =>
      by_cases hc : pattern <+: c :: s
      · obtain ⟨rest, hrest⟩ := hc
        have hlength := congrArg List.length hrest
        rw [List.length_append, hn] at hlength
        have hpos := List.length_pos_iff.mpr hp
        rw [← hrest, replaceAll_append hp]
        exact .replace (ih rest.length (by omega) rest rfl)
      · rw [replaceAll_cons hc]
        refine .keep hc (ih s.length ?_ s rfl)
        rw [← hn, List.length_cons]
        omega

/-- There is no other such text. -/
theorem Replaced.eq (hp : pattern ≠ []) {s t : List Char} (h : Replaced pattern replacement s t) :
    replaceAll pattern replacement s = t := by
  induction h with
  | nil => rfl
  | replace _ ih => rw [replaceAll_append hp, ih]
  | keep hc _ ih => rw [replaceAll_cons hc, ih]

/-- A reader that cannot tell the pattern from what is put in its place cannot tell the texts. -/
theorem foldl_replaceAll {α : Type} {f : α → Char → α} (hp : pattern ≠ [])
    (hf : ∀ a, replacement.foldl f a = pattern.foldl f a) (s : List Char) (a : α) :
    (replaceAll pattern replacement s).foldl f a = s.foldl f a := by
  have h := replaced_replaceAll replacement hp s
  generalize replaceAll pattern replacement s = t at h
  induction h generalizing a with
  | nil => rfl
  | replace _ ih => rw [List.foldl_append, List.foldl_append, hf, ih]
  | keep _ _ ih => exact ih _

end Replace

/-! ### Blanks -/

section Blank

variable {α β : Type} {f : α → Char → α}

/-- A reader that takes blanks for spaces and runs of spaces for single ones cannot tell a text from
the one with single spaces. -/
theorem foldl_singleSpaced (hblank : ∀ a c, isBlank c = true → f a c = f a ' ')
    (hagain : ∀ a, f (f a ' ') ' ' = f a ' ') (s : List Char) (a : α) :
    (singleSpaced s).foldl f a = s.foldl f a := by
  -- Behind a blank the reader is where a space has brought it.
  have hfrom (afterBlank : Bool) (a : α) (ha : afterBlank = true → f a ' ' = a) :
      (singleSpacedFrom afterBlank s).foldl f a = s.foldl f a := by
    induction s generalizing afterBlank a with
    | nil => rfl
    | cons c s ih =>
      rw [singleSpacedFrom, List.foldl_cons]
      split_ifs with hc hafter
      · rw [hblank a c hc, ha hafter]
        exact ih true a fun _ => ha hafter
      · rw [hblank a c hc]
        exact ih true _ fun _ => hagain a
      · exact ih false _ nofun
  exact hfrom false a nofun

/-- A reader that starts as if behind a blank, and forgets the blanks it has read last, cannot tell
a text from the one without blanks at its ends. -/
theorem foldl_trimmed {g : α → β} {a : α} (hstart : ∀ c, isBlank c = true → f a c = a)
    (hend : ∀ a c, isBlank c = true → g (f a c) = g a) (s : List Char) :
    g ((trimmed s).foldl f a) = g (s.foldl f a) := by
  have hfront : (s.dropWhile isBlank).foldl f a = s.foldl f a := by
    induction s with
    | nil => rfl
    | cons c s ih =>
      rw [List.dropWhile_cons]
      split_ifs with hc
      · rw [ih, List.foldl_cons, hstart c hc]
      · rfl
  have hback (s : List Char) : g ((s.rdropWhile isBlank).foldl f a) = g (s.foldl f a) := by
    induction s using List.reverseRecOn with
    | nil => rfl
    | append_singleton s c ih =>
      by_cases hc : isBlank c = true
      · rw [List.rdropWhile_concat_pos _ _ _ hc, ih, List.foldl_append]
        exact (hend _ c hc).symm
      · rw [List.rdropWhile_concat_neg _ _ _ hc]
  rw [← hfront]
  exact hback _

end Blank

end ServiceContract.Text
