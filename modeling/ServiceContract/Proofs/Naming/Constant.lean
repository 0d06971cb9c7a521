import ServiceContract.Proofs.Emit.Identifier
import ServiceContract.Proofs.Text.Split

/-!
# Names of constants

The constant form of a text is made of groups: its words, divided at humps too, in capitals. The
groups of an ASCII text consist of capital letters and digits, and `V` stands in front of a digit.
So the form is an identifier in both target languages as it is: it starts with a capital letter, and
all keywords have small ones. A number behind an underscore is one more group.

## Main definitions

* `Naming.groups`: the groups of a constant form.
* `Naming.IsConstant`: groups of capital letters and digits, with a letter in front.

## Main results

* `Naming.constantBody_eq`: the constant form joins the groups.
* `Naming.isConstant_constant`, `Naming.IsConstant.freshName`: the names that constants get.
* `Naming.IsConstant.identifier_eq`: the identifiers for these names.
-/

namespace ServiceContract

namespace Text

/-! ### Case of texts -/

/-- Below 128 the lower case of a text is core's, character by character. -/
theorem lower_of_lt {s : List Char} (h : ∀ c ∈ s, c.toNat < 128) :
    lower s = s.map Char.toLower := by
  have hafter (before : List Char) : lowerAfter before s = s.map Char.toLower := by
    induction s generalizing before with
    | nil => rfl
    | cons c s ih =>
      obtain ⟨hc, hs⟩ := List.forall_mem_cons.mp h
      have hsigma : c ≠ capitalSigma := by
        rintro rfl
        exact absurd hc (by decide)
      rw [lowerAfter, if_neg hsigma, lowerChar_of_lt hc, ih hs]
      rfl
  exact hafter []

/-- Parts that are joined may be written in upper case before or after. -/
theorem upper_intercalate (separator : List Char) (parts : List (List Char)) :
    upper (separator.intercalate parts) = (upper separator).intercalate (parts.map upper) := by
  induction parts with
  | nil => rfl
  | cons part parts ih =>
    cases parts with
    | nil => simp
    | cons next parts =>
      rw [List.intercalate_cons_cons, List.map_cons, List.map_cons, List.intercalate_cons_cons,
        ← List.map_cons, ← ih]
      simp [upper]

end Text

namespace Naming

open Text

/-! ### Groups -/

/-- The words of a text, divided at humps too, in capitals. -/
def groups (s : List Char) : List (List Char) :=
  (words (lower (breakHumps s))).map upper

/-- The constant form joins the groups by underscores. -/
theorem constantBody_eq (s : List Char) : constantBody s = ['_'].intercalate (groups s) :=
  upper_intercalate ['_'] _

theorem mem_of_mem_breakHumpsAfter {before : Option Char} {s : List Char} {c : Char}
    (h : c ∈ breakHumpsAfter before s) : c = '_' ∨ c ∈ s := by
  induction s generalizing before with
  | nil => cases h
  | cons d s ih =>
    have hrest (h : c = d ∨ c ∈ breakHumpsAfter (some d) s) : c = '_' ∨ c ∈ d :: s := by
      rcases h with rfl | h
      · exact .inr List.mem_cons_self
      · exact (ih h).imp_right (List.mem_cons_of_mem d)
    rw [breakHumpsAfter] at h
    split_ifs at h
    · rcases List.mem_cons.mp h with rfl | h
      · exact .inl rfl
      · exact hrest (List.mem_cons.mp h)
    · exact hrest (List.mem_cons.mp h)

/-- Breaking a text adds nothing but underscores. -/
theorem mem_of_mem_breakHumps {s : List Char} {c : Char} (h : c ∈ breakHumps s) : c = '_' ∨ c ∈ s :=
  mem_of_mem_breakHumpsAfter h

/-- The words of the constant form of an ASCII text are ASCII texts before they are written in
capitals. -/
theorem lt_of_mem_lower_breakHumps {s : List Char} (h : ∀ c ∈ s, c.toNat < 128) :
    ∀ c ∈ lower (breakHumps s), c.toNat < 128 := by
  have hbroken : ∀ c ∈ breakHumps s, c.toNat < 128 := fun c hc =>
    (mem_of_mem_breakHumps hc).elim (fun h => h ▸ by decide) (h c)
  rw [lower_of_lt hbroken]
  refine List.forall_mem_map.mpr fun c hc => ?_
  exact forall_ascii (P := fun c => c.toLower.toNat < 128) (by decide) (hbroken c hc)

/-- A capital letter or a digit. -/
def IsCapital (c : Char) : Prop :=
  c.isUpper = true ∨ c.isDigit = true

instance (c : Char) : Decidable (IsCapital c) :=
  inferInstanceAs (Decidable (_ ∨ _))

theorem IsCapital.lt {c : Char} (h : IsCapital c) : c.toNat < 128 :=
  lt_of_isAlphanum
    (h.elim (fun h => (Bool.or_eq_true _ _).mpr (.inl ((Bool.or_eq_true _ _).mpr (.inl h))))
      isAlphanum_of_isDigit)

/-- The groups of an ASCII text consist of capital letters and digits. -/
theorem isCapital_of_mem_groups {s g : List Char} (h : ∀ c ∈ s, c.toNat < 128) (hg : g ∈ groups s) :
    g ≠ [] ∧ ∀ c ∈ g, IsCapital c := by
  have hlower := lt_of_mem_lower_breakHumps h
  obtain ⟨w, hw, rfl⟩ := List.mem_map.mp hg
  have hchar {c : Char} (hc : c ∈ w) : upperChar c = [c.toUpper] ∧ IsCapital c.toUpper := by
    obtain ⟨hmem, hword⟩ := mem_of_mem_words hw hc
    have hascii := hlower c hmem
    refine ⟨upperChar_of_lt hascii, ?_⟩
    exact forall_ascii (P := fun c => c.isAlphanum = true → IsCapital c.toUpper) (by decide) hascii
      (isWordChar_of_lt hascii ▸ hword)
  constructor
  · obtain ⟨c, cs, rfl⟩ := List.exists_cons_of_ne_nil (ne_nil_of_mem_wordsAfter hw)
    simp [upper, (hchar List.mem_cons_self).1]
  · intro c hc
    obtain ⟨d, hd, hc⟩ := List.mem_flatMap.mp hc
    obtain ⟨hupper, hcapital⟩ := hchar hd
    rw [hupper, List.mem_singleton] at hc
    exact hc ▸ hcapital

/-! ### Names -/

/-- The name is made of groups of capital letters and digits, joined by underscores, with a letter
in front. -/
def IsConstant (name : String) : Prop :=
  ∃ (c : Char) (cs : List Char) (rest : List (List Char)),
    name.toList = c :: cs ++ rest.flatMap ('_' :: ·) ∧ c.isUpper = true ∧ (∀ d ∈ cs, IsCapital d) ∧
      ∀ g ∈ rest, g ≠ [] ∧ ∀ d ∈ g, IsCapital d

/-- The constant form of an ASCII name. -/
theorem isConstant_constant {name : String} (h : IsAscii name) : IsConstant (constant name) := by
  have hgroups {g : List Char} (hg : g ∈ groups name.toList) := isCapital_of_mem_groups h hg
  rw [IsConstant, constant, String.toList_ofList, constantChars, constantBody_eq]
  cases hnames : groups name.toList with
  | nil => exact ⟨'E', ['M', 'P', 'T', 'Y'], [], rfl, by decide, by simp [IsCapital], by simp⟩
  | cons g rest =>
    rw [hnames] at hgroups
    obtain ⟨hne, hg⟩ := hgroups List.mem_cons_self
    have hrest : ∀ g ∈ rest, g ≠ [] ∧ ∀ d ∈ g, IsCapital d := fun g hg =>
      hgroups (List.mem_cons_of_mem _ hg)
    obtain ⟨c, cs, rfl⟩ := List.exists_cons_of_ne_nil hne
    obtain ⟨hc, hcs⟩ := List.forall_mem_cons.mp hg
    rw [intercalate_cons]
    dsimp only [List.cons_append, List.nil_append]
    split_ifs with hdigit
    · exact ⟨'V', [], (c :: cs) :: rest,
        by simp, by decide, by simp, List.forall_mem_cons.mpr ⟨⟨hne, hg⟩, hrest⟩⟩
    · exact ⟨c, cs, rest, rfl, hc.resolve_right fun h =>
        hdigit (isDigitLike_of_isDigit h), hcs, hrest⟩

namespace IsConstant

variable {name : String} (h : IsConstant name)
include h

/-- A number behind an underscore is one more group. -/
theorem freshName (taken : List String) : IsConstant (freshName "_" taken name) := by
  have hnumbered (k : ℕ) : IsConstant (numbered "_" name k) := by
    cases k with
    | zero => exact h
    | succ k =>
      obtain ⟨c, cs, rest, hname, hc, hcs, hrest⟩ := h
      have hdigits : ∀ d ∈ Nat.toDigits 10 (k + 2), IsCapital d := fun d hd =>
        .inr (Nat.isDigit_of_mem_toDigits (by decide) (by decide) hd)
      refine ⟨c, cs, rest ++ [Nat.toDigits 10 (k + 2)], ?_, hc, hcs, ?_⟩
      · simp [numbered, hname]
      · exact List.forall_mem_append.mpr
          ⟨hrest, List.forall_mem_singleton.mpr
            ⟨List.ne_nil_of_length_pos Nat.length_toDigits_pos, hdigits⟩⟩
  exact hnumbered _

/-- There are no small letters in the name. -/
theorem isLower_eq_false : ∀ c ∈ name.toList, c.isLower = false := by
  have hcapital {c : Char} (hc : IsCapital c) : c.isLower = false :=
    forall_ascii (P := fun c => IsCapital c → c.isLower = false) (by decide) hc.lt hc
  obtain ⟨c, cs, rest, hname, hc, hcs, hrest⟩ := h
  intro d hd
  rw [hname, List.cons_append, List.mem_cons, List.mem_append, List.mem_flatMap] at hd
  rcases hd with rfl | hd | ⟨g, hg, hd⟩
  · exact hcapital (.inl hc)
  · exact hcapital (hcs d hd)
  · rcases List.mem_cons.mp hd with rfl | hd
    · decide
    · exact hcapital ((hrest g hg).2 d hd)

theorem capitalized : Capitalized name := by
  have hlower := h.isLower_eq_false
  obtain ⟨c, cs, rest, hname, -⟩ := h
  rw [hname] at hlower
  exact ⟨c, cs ++ rest.flatMap ('_' :: ·), hname, hlower c List.mem_cons_self⟩

/-- The name starts with a letter. -/
theorem not_startsWithDigit : ¬ StartsWithDigit name := by
  obtain ⟨c, cs, rest, hname, hc, -⟩ := h
  have hlt := IsCapital.lt (.inl hc)
  have hdigit : c.isDigit = false :=
    forall_ascii (P := fun c => c.isUpper = true → c.isDigit = false) (by decide) hlt hc
  rw [Python.startsWithDigit_cons hname, isDigitLike_of_lt hlt, hdigit]
  exact Bool.false_ne_true

/-- The name is an identifier as it is, in both target languages. -/
theorem identifier_eq : Python.identifier name = name ∧ Kotlin.identifier name = name := by
  have hcapitalized := h.capitalized
  have hdigit := h.not_startsWithDigit
  have hkeyword : name ∉ Python.capitalKeywords := by
    have hsmall : (Python.capitalKeywords.all fun k => k.toList.any Char.isLower) =
        true := by decide
    intro hmem
    obtain ⟨c, hc, hlower⟩ := List.any_eq_true.mp (List.all_eq_true.mp hsmall name hmem)
    rw [h.isLower_eq_false c hc] at hlower
    cases hlower
  exact ⟨((Python.typeText_eq_identifier_iff hcapitalized).mpr ⟨hdigit, hkeyword⟩).symm,
    ((Kotlin.typeText_eq_identifier_iff hcapitalized).mpr hdigit).symm⟩

end IsConstant

end Naming

end ServiceContract
