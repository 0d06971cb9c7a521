import ServiceContract.Proofs.Contract.Spelling
import ServiceContract.Proofs.Naming.Camel

/-!
# Identifiers in Python

The identifier for a name is the name itself, unless the name is empty, starts with a digit or is a
keyword. It is no keyword, and if the name is ASCII it is an identifier exactly if the name has no
characters but letters, digits and underscores. Two names have one identifier only if one of them
is, as it is, the identifier that is made for the other one.

## Main definitions

* `Python.IsIdentifier`: the ASCII identifiers, keywords included.
* `Python.Spells`: how an identifier comes from a name.
* `Python.Shadows`: a name that is the identifier made for another one.

## Main results

* `Python.identifier_not_mem_keywords`, `Python.isIdentifier_identifier_iff`.
* `Python.identifier_eq_iff`: which names have one identifier.
-/

namespace ServiceContract.Python

open Naming

/-- A letter, a digit or an underscore. -/
def IsPart (c : Char) : Prop :=
  c.isAlphanum = true ∨ c = '_'

instance (c : Char) : Decidable (IsPart c) :=
  inferInstanceAs (Decidable (_ ∨ _))

/-- The text is a letter or an underscore with letters, digits and underscores behind it. -/
def IsIdentifier (text : String) : Prop :=
  ∃ c cs, text.toList = c :: cs ∧ (c.isAlpha = true ∨ c = '_') ∧ ∀ d ∈ cs, IsPart d

/-! ### Spellings -/

/-- The identifier comes from the name. -/
inductive Spells : String → String → Prop
  | underscored {name : String} (h : name = "" ∨ StartsWithDigit name) : Spells name ("_" ++ name)
  | keyword {name : String} (h : name ∈ keywords) : Spells name (name ++ "_")
  | kept {name : String} (hne : name ≠ "") (hdigit : ¬ StartsWithDigit name)
    (hkeyword : name ∉ keywords) :
    Spells name name

/-- A keyword is a letter with letters behind it. -/
theorem exists_cons_of_mem_keywords {name : String} (h : name ∈ keywords) :
    ∃ c cs, name.toList = c :: cs ∧ c.isAlpha = true ∧ (∀ d ∈ cs, d.isAlpha = true) ∧
      Text.isDigitLike c = false := by
  have hall : ∀ k ∈ keywords, (k.toList.head?.any fun c => !Text.isDigitLike c) = true ∧
      k.toList.all Char.isAlpha = true := by
    decide
  obtain ⟨hhead, hletters⟩ := hall name h
  cases hname : name.toList with
  | nil =>
    rw [hname] at hhead
    cases hhead
  | cons c cs =>
    rw [hname] at hhead hletters
    obtain ⟨hc, hcs⟩ := (Bool.and_eq_true _ _).mp hletters
    exact ⟨c, cs, rfl, hc, List.all_eq_true.mp hcs, by simpa using hhead⟩

theorem ne_underscore_of_isAlpha {c : Char} (h : c.isAlpha = true) : c ≠ '_' := by
  rintro rfl
  exact absurd h (by decide)

/-- No keyword has an underscore. -/
theorem not_mem_of_mem_keywords {name : String} (h : name ∈ keywords) : '_' ∉ name.toList := by
  obtain ⟨c, cs, hname, hc, hcs, -⟩ := exists_cons_of_mem_keywords h
  rw [hname]
  intro hmem
  rcases List.mem_cons.mp hmem with rfl | hmem
  · exact ne_underscore_of_isAlpha hc rfl
  · exact ne_underscore_of_isAlpha (hcs _ hmem) rfl

theorem startsWithDigit_cons {name : String} {c : Char} {cs : List Char}
    (h : name.toList = c :: cs) :
    StartsWithDigit name ↔ Text.isDigitLike c = true := by
  rw [StartsWithDigit, h]
  rfl

theorem underscore_not_mem_keywords (name : String) : "_" ++ name ∉ keywords := fun h =>
  not_mem_of_mem_keywords h (by simp [String.toList_append])

theorem not_startsWithDigit_of_mem_keywords {name : String} (h : name ∈ keywords) :
    ¬ StartsWithDigit name := by
  obtain ⟨c, cs, hname, -, -, hdigit⟩ := exists_cons_of_mem_keywords h
  rw [startsWithDigit_cons hname, hdigit]
  exact Bool.false_ne_true

/-- What comes from the name is its identifier. -/
theorem Spells.eq {name text : String} (h : Spells name text) : identifier name = text := by
  cases h with
  | underscored h =>
    rcases h with rfl | h
    · rfl
    · cases hname : name.toList with
      | nil =>
        rw [StartsWithDigit, hname] at h
        cases h
      | cons c cs =>
        rw [identifier, hname]
        dsimp only
        rw [if_pos ((startsWithDigit_cons hname).mp h), if_neg]
        simpa using underscore_not_mem_keywords name
  | keyword h =>
    have hdigit := not_startsWithDigit_of_mem_keywords h
    obtain ⟨c, cs, hname, -⟩ := exists_cons_of_mem_keywords h
    rw [startsWithDigit_cons hname] at hdigit
    rw [identifier, hname]
    dsimp only
    rw [if_neg hdigit, if_pos (by simpa using h)]
  | kept hne hdigit hkeyword =>
    cases hname : name.toList with
    | nil => exact absurd (String.toList_eq_nil_iff.mp hname) hne
    | cons c cs =>
      rw [startsWithDigit_cons hname] at hdigit
      rw [identifier, hname]
      dsimp only
      rw [if_neg hdigit, if_neg (by simpa using hkeyword)]

theorem spells_identifier (name : String) : Spells name (identifier name) := by
  obtain ⟨text, h⟩ : ∃ text, Spells name text := by
    by_cases hne : name = ""
    · exact ⟨_, .underscored (.inl hne)⟩
    by_cases hdigit : StartsWithDigit name
    · exact ⟨_, .underscored (.inr hdigit)⟩
    by_cases hkeyword : name ∈ keywords
    · exact ⟨_, .keyword hkeyword⟩
    · exact ⟨_, .kept hne hdigit hkeyword⟩
  exact h.eq.symm ▸ h

/-! ### Which texts are identifiers -/

/-- The identifier for a name is no keyword. -/
theorem identifier_not_mem_keywords (name : String) : identifier name ∉ keywords := by
  have h := spells_identifier name
  generalize identifier name = text at h
  cases h with
  | underscored h => exact underscore_not_mem_keywords name
  | keyword h => exact fun hmem => not_mem_of_mem_keywords hmem (by simp [String.toList_append])
  | kept _ _ hkeyword => exact hkeyword

/-- The identifier for an ASCII name is one exactly if the name has no other characters than
letters, digits and underscores. -/
theorem isIdentifier_identifier_iff {name : String} (hascii : IsAscii name) :
    IsIdentifier (identifier name) ↔ ∀ c ∈ name.toList, IsPart c := by
  have h := spells_identifier name
  generalize identifier name = text at h
  cases h with
  | underscored h =>
    have hlist : ("_" ++ name).toList = '_' :: name.toList := by rw [String.toList_append]; rfl
    constructor
    · rintro ⟨c, cs, hcons, -, hparts⟩
      rw [hlist] at hcons
      exact (List.cons.inj hcons).2 ▸ hparts
    · exact fun hparts => ⟨'_', name.toList, hlist, .inr rfl, hparts⟩
  | keyword h =>
    obtain ⟨c, cs, hname, hc, hcs, -⟩ := exists_cons_of_mem_keywords h
    have hpart {d : Char} (hd : d.isAlpha = true) : IsPart d := .inl (by simp [Char.isAlphanum, hd])
    refine iff_of_true ⟨c, cs ++ ['_'], ?_, .inl hc, ?_⟩ ?_
    · rw [String.toList_append, hname]
      rfl
    · exact List.forall_mem_append.mpr ⟨fun d hd => hpart (hcs d hd), by simp [IsPart]⟩
    · rw [hname]
      exact List.forall_mem_cons.mpr ⟨hpart hc, fun d hd => hpart (hcs d hd)⟩
  | kept hne hdigit hkeyword =>
    cases hname : name.toList with
    | nil => exact absurd (String.toList_eq_nil_iff.mp hname) hne
    | cons c cs =>
      rw [IsAscii, hname] at hascii
      rw [startsWithDigit_cons hname,
        Text.isDigitLike_of_lt (hascii c List.mem_cons_self)] at hdigit
      have hfirst : (c.isAlpha = true ∨ c = '_') ↔ IsPart c := by
        simp [IsPart, Char.isAlphanum, hdigit]
      rw [List.forall_mem_cons, ← hfirst]
      constructor
      · rintro ⟨c', cs', hcons, hc, hcs⟩
        obtain ⟨rfl, rfl⟩ := List.cons.inj (hname.symm.trans hcons)
        exact ⟨hc, hcs⟩
      · exact fun h => ⟨c, cs, hname, h⟩

/-- An identifier without an underscore is the name. -/
theorem eq_of_identifier_eq {name text : String} (h : identifier name = text)
    (htext : '_' ∉ text.toList) :
    name = text := by
  have hspells := h ▸ spells_identifier name
  cases hspells with
  | underscored => exact absurd (by simp [String.toList_append]) htext
  | keyword => exact absurd (by simp [String.toList_append]) htext
  | kept => rfl

/-! ### Names with one identifier -/

/-- The second name is the identifier that is made for the first one, which is none by itself. -/
def Shadows (name other : String) : Prop :=
  (name = "" ∨ StartsWithDigit name) ∧ other = "_" ++ name ∨ name ∈ keywords ∧ other = name ++ "_"

/-- A name that is the identifier for another one is its own identifier. -/
theorem Shadows.identifier_eq {name other : String} (h : Shadows name other) :
    identifier name = other ∧ identifier other = other := by
  rcases h with ⟨h, rfl⟩ | ⟨h, rfl⟩
  · have hlist : ("_" ++ name).toList = '_' :: name.toList := by rw [String.toList_append]; rfl
    refine ⟨(Spells.underscored h).eq, (Spells.kept ?_ ?_ (underscore_not_mem_keywords name)).eq⟩
    · exact fun hempty => nomatch hlist.symm.trans (congrArg String.toList hempty)
    · rw [startsWithDigit_cons hlist]
      decide
  · obtain ⟨c, cs, hname, -, -, hdigit⟩ := exists_cons_of_mem_keywords h
    have hlist : (name ++ "_").toList =
        c :: (cs ++ ['_']) := by rw [String.toList_append, hname]; rfl
    refine ⟨(Spells.keyword h).eq, (Spells.kept ?_ ?_ ?_).eq⟩
    · exact fun hempty => nomatch hlist.symm.trans (congrArg String.toList hempty)
    · rw [startsWithDigit_cons hlist, hdigit]
      exact Bool.false_ne_true
    · exact fun hmem => not_mem_of_mem_keywords hmem (by simp [String.toList_append])

/-- Two names have one identifier exactly if they are equal or one of them is the identifier that is
made for the other one. -/
theorem identifier_eq_iff {a b : String} :
    identifier a = identifier b ↔ a = b ∨ Shadows a b ∨ Shadows b a := by
  constructor
  · intro h
    have hne {a b : String} (hb : b ∈ keywords) : "_" ++ a ≠ b ++ "_" := by
      obtain ⟨c, cs, hname, hc, -⟩ := exists_cons_of_mem_keywords hb
      intro heq
      have hlist := congrArg String.toList heq
      rw [String.toList_append, String.toList_append, hname] at hlist
      exact ne_underscore_of_isAlpha hc (List.cons.inj hlist).1.symm
    have ha := spells_identifier a
    have hb := spells_identifier b
    rw [h] at ha
    generalize identifier b = text at ha hb
    clear h
    cases ha with
    | underscored ha =>
      generalize htext : "_" ++ a = text at hb
      cases hb with
      | underscored hb => exact .inl (String.append_right_inj _ |>.mp htext)
      | keyword hb => exact absurd htext (hne hb)
      | kept => exact .inr (.inl (.inl ⟨ha, htext.symm⟩))
    | keyword ha =>
      generalize htext : a ++ "_" = text at hb
      cases hb with
      | underscored hb => exact absurd htext.symm (hne ha)
      | keyword hb => exact .inl (String.append_left_inj _ |>.mp htext)
      | kept => exact .inr (.inl (.inr ⟨ha, htext.symm⟩))
    | kept =>
      cases hb with
      | underscored hb => exact .inr (.inr (.inl ⟨hb, rfl⟩))
      | keyword hb => exact .inr (.inr (.inr ⟨hb, rfl⟩))
      | kept => exact .inl rfl
  · rintro (rfl | h | h)
    · rfl
    · exact h.identifier_eq.1.trans h.identifier_eq.2.symm
    · exact h.identifier_eq.2.trans h.identifier_eq.1.symm

end ServiceContract.Python
