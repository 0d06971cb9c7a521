import ServiceContract.Proofs.Naming

/-!
# Names in camel case

The words of a name hold its letters and digits and nothing else, so that the camel-case form of a
name is empty only if the name has neither. A letter in small case is a letter again: a form that is
not empty has a letter or a digit, and so is never a name without them. The form of an ASCII name
consists of ASCII letters and digits.

## Main definitions

* `Naming.HasWord`: names with a letter or a digit.
* `Naming.IsAscii`: names without other characters than ASCII ones.
* `Naming.IsCamel`: names that are in camel case.

## Main results

* `Naming.flatten_words`: the words of a text hold its letters and digits.
* `Naming.hasWord_camel`, `Naming.camel_eq_empty_iff`: which forms are empty.
* `Naming.nonEmpty_camel_eq_iff`: when the names of two fields or parameters meet.
* `Naming.isAlphanum_of_mem_camel`: the form of an ASCII name.
-/

namespace ServiceContract

namespace Text

/-! ### Lower case -/

/-- What the characters below 128 have in common. -/
theorem forall_ascii {P : Char → Prop} (h : ∀ n < 128, P (Char.ofNat n)) {c : Char}
    (hc : c.toNat < 128) : P c := by
  have hP := h c.toNat hc
  rwa [Char.ofNat_toNat] at hP

/-- The ranges of the letters and numeric characters, those below 128 included. -/
def wordRanges : CodePointRanges :=
  [(48, 57), (65, 90), (97, 122)] ++ wordCharRanges

/-- The characters in the ranges are word characters. -/
theorem isWordChar_ofNat {range : Nat × Nat} (hrange : range ∈ wordRanges) {n : Nat}
    (hfirst : range.1 ≤ n) (hlast : n ≤ range.2) : isWordChar (Char.ofNat n) = true := by
  rcases List.mem_append.mp hrange with hascii | hrange
  · have hall : ∀ range ∈ [(48, 57), (65, 90), (97, 122)], ∀ n < 128, range.1 ≤ n → n ≤ range.2 →
        isWordChar (Char.ofNat n) = true := by
      decide
    have hlt : ∀ range ∈ [(48, 57), (65, 90), (97, 122)], range.2 < 128 := by decide
    exact hall range hascii n (Nat.lt_of_le_of_lt hlast (hlt range hascii)) hfirst hlast
  · -- No range has surrogates, so that a number in it is the code point of the character.
    have hall : ∀ range ∈ wordCharRanges, 128 ≤ range.1 ∧
        (range.2 < 0xD800 ∨ 0xDFFF < range.1 ∧ range.2 < 0x110000) := by
      decide +kernel
    obtain ⟨hascii, hbounds⟩ := hall range hrange
    have hvalid : n.isValidChar := by
      unfold Nat.isValidChar
      omega
    have hcode : (Char.ofNat n).toNat = n := by
      rw [Char.ofNat, dif_pos hvalid]
      rfl
    rw [isWordChar, hcode, if_neg (Nat.not_lt.mpr (Nat.le_trans hascii hfirst))]
    refine List.any_eq_true.mpr ⟨range, hrange, ?_⟩
    rw [hcode, decide_eq_true hfirst, decide_eq_true hlast]
    rfl

/-- The letters of a run go to letters. -/
theorem exists_range_of_mem_lowerRuns {run : CaseRun} (hrun : run ∈ lowerRuns) :
    (∃ range ∈ wordRanges, (range.1 : Int) ≤ run.first + run.shift ∧
      run.last + run.shift ≤ range.2) ∨
      ∀ range ∈ wordCharRanges, run.last < range.1 ∨ range.2 < run.first := by
  have hall : lowerRuns.all
      (fun run => (decide (0 ≤ run.first + run.shift) && wordRanges.any fun range =>
      range.1.ble (run.first + run.shift).toNat && (run.last + run.shift).toNat.ble range.2) ||
        wordCharRanges.all fun range => run.last.blt range.1 || range.2.blt run.first) = true := by
    decide +kernel
  have hrunAll := List.all_eq_true.mp hall run hrun
  simp only [Bool.or_eq_true, Bool.and_eq_true, List.any_eq_true, List.all_eq_true,
    decide_eq_true_eq, Nat.ble_eq, Nat.blt_eq] at hrunAll
  refine hrunAll.imp_left fun ⟨hpositive, range, hrange, hfirst, hlast⟩ =>
    ⟨range, hrange, ?_, ?_⟩ <;> omega

/-- The small letter of a word character is one. -/
theorem exists_isWordChar_lowerChar {c : Char} (h : isWordChar c = true) :
    ∃ d ∈ lowerChar c, isWordChar d = true := by
  by_cases hascii : c.toNat < 128
  · have hlower := forall_ascii (P := fun c => c.isAlphanum = true → isWordChar c.toLower = true)
      (by decide) hascii
    rw [lowerChar_of_lt hascii]
    exact ⟨_, List.mem_singleton_self _, hlower (isWordChar_of_lt hascii ▸ h)⟩
  rw [lowerChar, if_neg hascii, mapCase]
  split
  · rename_i codes hcodes
    have hall : ∀ e ∈ lowerExpansions, (e.2.map Char.ofNat).any isWordChar = true := by
      decide
    exact List.any_eq_true.mp (hall _ (mem_of_lookup hcodes))
  · split
    · rename_i run hrun
      refine ⟨_, List.mem_singleton_self _, ?_⟩
      have hhas := List.find?_some hrun
      simp only [CaseRun.has, Bool.and_eq_true, decide_eq_true_eq] at hhas
      rcases exists_range_of_mem_lowerRuns (List.mem_of_find?_eq_some hrun) with
        ⟨range, hrange, hfirst, hlast⟩ | hapart
      · exact isWordChar_ofNat hrange (by omega) (by omega)
      · rw [isWordChar, if_neg hascii] at h
        obtain ⟨range, hrange, hmem⟩ := List.any_eq_true.mp h
        simp only [Bool.and_eq_true, decide_eq_true_eq] at hmem
        have := hapart range hrange
        omega
    · exact ⟨c, List.mem_singleton_self c, h⟩

theorem exists_isWordChar_lower {c : Char} (h : isWordChar c = true) :
    ∃ d ∈ lower [c], isWordChar d = true := by
  have hsigma : isWordChar smallSigma = true := by decide
  rw [lower, lowerAfter, lowerAfter, List.append_nil]
  split_ifs with hcapital hend
  · cases hend
  · exact ⟨smallSigma, List.mem_singleton_self _, hsigma⟩
  · exact exists_isWordChar_lowerChar h

/-! ### ASCII -/

/-- The case of an ASCII letter or digit changes within the ASCII letters and digits. -/
theorem isAlphanum_of_mem_case {c : Char} (hascii : c.toNat < 128) (h : c.isAlphanum = true) :
    (∀ d ∈ lower [c], d.isAlphanum = true) ∧ ∀ d ∈ upperChar c, d.isAlphanum = true := by
  have hsigma : c ≠ capitalSigma := by
    rintro rfl
    exact absurd hascii (by decide)
  obtain ⟨hlower, hupper⟩ := forall_ascii
    (P := fun c => c.isAlphanum = true → c.toLower.isAlphanum = true ∧ c.toUpper.isAlphanum = true)
    (by decide) hascii h
  rw [upperChar_of_lt hascii, lower, lowerAfter, lowerAfter, List.append_nil, if_neg hsigma,
    lowerChar_of_lt hascii]
  exact ⟨List.forall_mem_singleton.mpr hlower, List.forall_mem_singleton.mpr hupper⟩

end Text

namespace Naming

open Build Text

/-! ### Words -/

theorem flatten_wordsAfter (word s : List Char) :
    (wordsAfter word s).flatten = word ++ s.filter isWordChar := by
  induction s generalizing word with
  | nil =>
    rw [wordsAfter]
    split_ifs with hempty
    · rw [List.isEmpty_iff.mp hempty]
      rfl
    · simp
  | cons c cs ih =>
    rw [wordsAfter]
    split_ifs with hword hempty
    · rw [ih, List.filter_cons_of_pos hword, List.append_assoc]
      rfl
    · rw [ih, List.filter_cons_of_neg hword, List.isEmpty_iff.mp hempty]
    · rw [List.flatten_cons, ih, List.filter_cons_of_neg hword]
      rfl

/-- The words of a text hold its letters and digits, in order. -/
theorem flatten_words (s : List Char) : (words s).flatten = s.filter isWordChar :=
  flatten_wordsAfter [] s

theorem ne_nil_of_mem_wordsAfter {word s w : List Char} (h : w ∈ wordsAfter word s) : w ≠ [] := by
  induction s generalizing word with
  | nil =>
    rw [wordsAfter] at h
    split_ifs at h with hempty
    · cases h
    · rw [List.mem_singleton.mp h]
      exact fun hnil => hempty (List.isEmpty_iff.mpr hnil)
  | cons c cs ih =>
    rw [wordsAfter] at h
    split_ifs at h with hword hempty
    · exact ih h
    · exact ih h
    · rcases List.mem_cons.mp h with rfl | h
      · exact fun hnil => hempty (List.isEmpty_iff.mpr hnil)
      · exact ih h

/-- The characters of words are letters and digits of the text. -/
theorem mem_of_mem_words {s w : List Char} {c : Char} (hw : w ∈ words s) (hc : c ∈ w) :
    c ∈ s ∧ isWordChar c = true := by
  have hmem : c ∈ (words s).flatten := List.mem_flatten.mpr ⟨w, hw, hc⟩
  rw [flatten_words] at hmem
  exact List.mem_filter.mp hmem

/-! ### Camel case -/

/-- The name has a letter or a digit. -/
def HasWord (name : String) : Prop :=
  ∃ c ∈ name.toList, isWordChar c = true

instance (name : String) : Decidable (HasWord name) :=
  decidable_of_iff (name.toList.any isWordChar = true) List.any_eq_true

/-- All characters of the name are ASCII ones. -/
def IsAscii (name : String) : Prop :=
  ∀ c ∈ name.toList, c.toNat < 128

instance (name : String) : Decidable (IsAscii name) :=
  decidable_of_iff ((name.toList.all fun c => decide (c.toNat < 128)) = true) (by simp [IsAscii])

theorem words_eq_nil_iff {name : String} : words name.toList = [] ↔ ¬ HasWord name := by
  constructor
  · rintro hnil ⟨c, hc, hword⟩
    have hmem : c ∈ (words name.toList).flatten := by
      rw [flatten_words]
      exact List.mem_filter.mpr ⟨hc, hword⟩
    rw [hnil] at hmem
    cases hmem
  · intro h
    refine List.eq_nil_iff_forall_not_mem.mpr fun w hw => ?_
    obtain ⟨c, hc⟩ := List.exists_mem_of_ne_nil w (ne_nil_of_mem_wordsAfter hw)
    obtain ⟨hmem, hword⟩ := mem_of_mem_words hw hc
    exact h ⟨c, hmem, hword⟩

/-- The camel-case form of a name with a letter or a digit has one too. -/
theorem hasWord_camel {name : String} (h : HasWord name) : HasWord (camel name) := by
  have hwords : words name.toList ≠ [] := fun hnil => words_eq_nil_iff.mp hnil h
  obtain ⟨word, others, hcons⟩ := List.exists_cons_of_ne_nil hwords
  have hmem : word ∈ words name.toList := hcons ▸ List.mem_cons_self
  obtain ⟨c, cs, rfl⟩ := List.exists_cons_of_ne_nil (ne_nil_of_mem_wordsAfter hmem)
  obtain ⟨d, hd, hword⟩ := exists_isWordChar_lower (mem_of_mem_words hmem List.mem_cons_self).2
  refine ⟨d, ?_, hword⟩
  rw [camel, String.toList_ofList, camelChars, hcons]
  exact List.mem_append_left _ (List.mem_append_left cs hd)

/-- The camel-case form of a name is empty exactly if the name has no letter and no digit. -/
theorem camel_eq_empty_iff {name : String} : camel name = "" ↔ ¬ HasWord name := by
  constructor
  · intro hempty h
    obtain ⟨c, hc, -⟩ := hasWord_camel h
    rw [hempty] at hc
    cases hc
  · intro h
    rw [camel, camelChars, words_eq_nil_iff.mpr h]

theorem nonEmpty_camel {name : String} :
    nonEmpty (camel name) name = if HasWord name then camel name else name := by
  have hempty : (camel name).isEmpty = true ↔ ¬ HasWord name :=
    String.isEmpty_iff.trans camel_eq_empty_iff
  rw [nonEmpty]
  by_cases h : HasWord name
  · rw [if_pos h, if_neg fun he => hempty.mp he h]
  · rw [if_neg h, if_pos (hempty.mpr h)]

/-- Two names that stand for themselves where their camel-case form is empty meet only if they have
one form that is not. -/
theorem nonEmpty_camel_eq_iff {a b : String} : nonEmpty (camel a) a = nonEmpty (camel b) b ↔
    a = b ∨ HasWord a ∧ camel a = camel b := by
  rw [nonEmpty_camel, nonEmpty_camel]
  by_cases ha : HasWord a
  · rw [if_pos ha]
    by_cases hb : HasWord b
    · rw [if_pos hb]
      refine ⟨fun h => .inr ⟨ha, h⟩, ?_⟩
      rintro (rfl | ⟨-, h⟩)
      · rfl
      · exact h
    · rw [if_neg hb]
      refine iff_of_false (fun h => hb (h ▸ hasWord_camel ha)) ?_
      rintro (rfl | ⟨-, h⟩)
      · exact hb ha
      · exact camel_eq_empty_iff.mp (h.trans (camel_eq_empty_iff.mpr hb)) ha
  · rw [if_neg ha]
    by_cases hb : HasWord b
    · rw [if_pos hb]
      refine iff_of_false (fun h => ha (h ▸ hasWord_camel hb)) ?_
      rintro (rfl | ⟨h, -⟩)
      · exact ha hb
      · exact ha h
    · rw [if_neg hb]
      exact ⟨.inl, fun h => h.resolve_right fun h => ha h.1⟩

/-- The name is one word with a small initial. -/
def IsCamel (name : String) : Prop :=
  ∃ c cs, name.toList = c :: cs ∧ lower [c] = [c] ∧ ∀ d ∈ c :: cs, isWordChar d = true

theorem wordsAfter_of_isWordChar {word s : List Char} (hword : word ≠ [])
    (h : ∀ c ∈ s, isWordChar c = true) :
    wordsAfter word s = [word ++ s] := by
  induction s generalizing word with
  | nil => rw [wordsAfter, if_neg fun hempty => hword (List.isEmpty_iff.mp hempty), List.append_nil]
  | cons c cs ih =>
    obtain ⟨hc, hcs⟩ := List.forall_mem_cons.mp h
    rw [wordsAfter, if_pos hc,
      ih (List.append_ne_nil_of_right_ne_nil word (List.cons_ne_nil c [])) hcs, List.append_assoc]
    rfl

/-- A name in camel case is its own form. -/
theorem IsCamel.camel_eq {name : String} (h : IsCamel name) : camel name = name := by
  obtain ⟨c, cs, hname, hlower, hwords⟩ := h
  obtain ⟨hc, hcs⟩ := List.forall_mem_cons.mp hwords
  have hword : words (c :: cs) = [c :: cs] := by
    rw [words, wordsAfter, if_pos hc]
    exact wordsAfter_of_isWordChar (List.cons_ne_nil c []) hcs
  rw [camel, camelChars, hname, hword]
  dsimp only
  rw [lowerFirst, hlower, List.flatMap_nil, List.append_nil, List.singleton_append, ← hname,
    String.ofList_toList]

/-- The camel-case form of an ASCII name consists of ASCII letters and digits. -/
theorem isAlphanum_of_mem_camel {name : String} (h : IsAscii name) :
    ∀ c ∈ (camel name).toList, c.isAlphanum = true := by
  have hwords {w : List Char} (hw : w ∈ words name.toList) {c : Char} (hc : c ∈ w) :
      c.toNat < 128 ∧ c.isAlphanum = true := by
    obtain ⟨hmem, hword⟩ := mem_of_mem_words hw hc
    exact ⟨h c hmem, isWordChar_of_lt (h c hmem) ▸ hword⟩
  have hupper {w : List Char} (hw : w ∈ words name.toList) :
      ∀ c ∈ upperFirst w, c.isAlphanum = true := by
    cases w with
    | nil => exact fun c hc => absurd hc List.not_mem_nil
    | cons c cs =>
      obtain ⟨hascii, halpha⟩ := hwords hw List.mem_cons_self
      exact List.forall_mem_append.mpr
        ⟨(isAlphanum_of_mem_case hascii halpha).2, fun d hd =>
          (hwords hw (List.mem_cons_of_mem c hd)).2⟩
  rw [camel, String.toList_ofList, camelChars]
  split
  · exact fun c hc => absurd hc List.not_mem_nil
  · rename_i word others hcons
    rw [hcons] at hwords hupper
    refine List.forall_mem_append.mpr ⟨?_, fun c hc => ?_⟩
    · cases word with
      | nil => exact fun c hc => absurd hc List.not_mem_nil
      | cons c cs =>
        obtain ⟨hascii, halpha⟩ := hwords List.mem_cons_self List.mem_cons_self
        exact List.forall_mem_append.mpr ⟨(isAlphanum_of_mem_case hascii halpha).1,
          fun d hd => (hwords List.mem_cons_self (List.mem_cons_of_mem c hd)).2⟩
    · obtain ⟨w, hw, hc⟩ := List.mem_flatMap.mp hc
      exact hupper (List.mem_cons_of_mem word hw) c hc

end Naming

end ServiceContract
