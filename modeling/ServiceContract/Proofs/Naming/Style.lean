import ServiceContract.Proofs.Naming.Constant

/-!
# What the three styles keep of a name

A name of ASCII characters has the same letters and digits in all three styles, in the same order
and up to their case. In Pascal case it is one word with a capital initial, and in camel case this
word with a small initial, so that each of the two forms gives the other one again. In a constant
the letters are capitals, underscores stand between them, and `V` stands in front of a digit.

## Main definitions

* `Naming.letters`: the ASCII letters and digits of a text.
* `Naming.constantLetters`: what the constant form of a text has besides underscores.

## Main results

* `Naming.map_toLower_pascalChars`: the letters and digits in Pascal case.
* `Naming.modifyHead_toUpper_pascalChars`, `Naming.camelChars_eq_modifyHead`: the initials of the
  two forms.
* `Naming.flatten_groups`: the letters and digits of the groups of a constant form.
* `Naming.styles_keep_letters`: the three styles of a name.
-/

namespace ServiceContract

namespace Text

/-! ### Capitals -/

/-- Below 128 the upper case of a text is core's, character by character. -/
theorem upper_of_lt {s : List Char} (h : ∀ c ∈ s, c.toNat < 128) :
    upper s = s.map Char.toUpper := by
  rw [upper, List.map_eq_flatMap]
  exact List.flatMap_congr fun c hc => upperChar_of_lt (h c hc)

/-- Parts may be written in upper case before or after they are put together. -/
theorem upper_flatten (parts : List (List Char)) :
    upper parts.flatten = (parts.map upper).flatten := by
  induction parts with
  | nil => rfl
  | cons part parts ih => simp [upper, List.flatMap_append, ← ih]

/-! ### Initials -/

section Initial

variable {s : List Char}

/-- Below 128 an initial in upper case is core's. -/
theorem upperFirst_of_lt (h : ∀ c ∈ s, c.toNat < 128) :
    upperFirst s = s.modifyHead Char.toUpper := by
  cases s with
  | nil => rfl
  | cons c cs => simp [upperFirst, upperChar_of_lt (h c List.mem_cons_self)]

/-- Below 128 an initial in lower case is core's. -/
theorem lowerFirst_of_lt (h : ∀ c ∈ s, c.toNat < 128) :
    lowerFirst s = s.modifyHead Char.toLower := by
  cases s with
  | nil => rfl
  | cons c cs =>
    have hc : ∀ d ∈ [c], d.toNat < 128 := List.forall_mem_singleton.mpr (h c List.mem_cons_self)
    simp [lowerFirst, lower_of_lt hc]

/-- A change of case of the initial is none up to case. -/
theorem map_toLower_modifyHead {f : Char → Char} (hf : ∀ c ∈ s, (f c).toLower = c.toLower) :
    (s.modifyHead f).map Char.toLower = s.map Char.toLower := by
  cases s with
  | nil => rfl
  | cons c cs => simp [hf c List.mem_cons_self]

/-- Two changes of the initial of which only the second one counts. -/
theorem modifyHead_modifyHead_of_forall {f g : Char → Char} (h : ∀ c ∈ s, f (g c) = f c) :
    (s.modifyHead g).modifyHead f = s.modifyHead f := by
  cases s with
  | nil => rfl
  | cons c cs => simp [h c List.mem_cons_self]

end Initial

/-- What a change of case does to another one below 128. -/
theorem case_of_lt {c : Char} (h : c.toNat < 128) :
    c.toUpper.toLower = c.toLower ∧ c.toLower.toLower = c.toLower ∧ c.toLower.toUpper = c.toUpper ∧
      c.toUpper.toUpper = c.toUpper := by
  exact forall_ascii (P := fun c => c.toUpper.toLower = c.toLower ∧ c.toLower.toLower = c.toLower ∧
    c.toLower.toUpper = c.toUpper ∧ c.toUpper.toUpper = c.toUpper) (by decide) h

/-- All but the capital letters stay as they are in lower case. -/
theorem toLower_of_not_isUpper {c : Char} (h : ¬ c.isUpper = true) : c.toLower = c :=
  dif_neg fun hupper => h (decide_eq_true hupper)

theorem isAlphanum_of_isUpper {c : Char} (h : c.isUpper = true) : c.isAlphanum = true := by
  have halpha : c.isAlpha = true := (Bool.or_eq_true _ _).mpr (.inl h)
  simp [Char.isAlphanum, halpha]

end Text

namespace Naming

open Text

/-! ### Letters and digits -/

/-- The ASCII letters and digits of a text, in order. -/
def letters (s : List Char) : List Char :=
  s.filter Char.isAlphanum

theorem lt_of_mem_letters {s : List Char} {c : Char} (h : c ∈ letters s) : c.toNat < 128 :=
  lt_of_isAlphanum (List.mem_filter.mp h).2

/-- A text that is made of the letters and digits of another one, up to case, has nothing else. -/
theorem isAlphanum_of_map_toLower_eq {s t : List Char}
    (h : t.map Char.toLower = (letters s).map Char.toLower) :
    ∀ c ∈ t, c.isAlphanum = true := by
  intro c hc
  have hmem : c.toLower ∈ (letters s).map Char.toLower := h ▸ List.mem_map_of_mem hc
  obtain ⟨d, hd, hlower⟩ := List.mem_map.mp hmem
  have hd := (List.mem_filter.mp hd).2
  have hdlower :=
    forall_ascii (P := fun d => d.isAlphanum = true → d.toLower.isAlphanum = true) (by decide)
      (lt_of_isAlphanum hd) hd
  rw [hlower] at hdlower
  by_cases hupper : c.isUpper = true
  · exact isAlphanum_of_isUpper hupper
  · rwa [toLower_of_not_isUpper hupper] at hdlower

section Ascii

variable {s : List Char} (h : ∀ c ∈ s, c.toNat < 128)
include h

/-- The letters and digits of an ASCII text are those of its words. -/
theorem filter_isWordChar_eq_letters : s.filter isWordChar = letters s :=
  List.filter_congr fun c hc => isWordChar_of_lt (h c hc)

theorem flatten_words_eq_letters : (words s).flatten = letters s := by
  rw [flatten_words, filter_isWordChar_eq_letters h]

/-- The words of an ASCII text consist of ASCII letters and digits. -/
theorem isAlphanum_of_mem_words {w : List Char} (hw : w ∈ words s) :
    ∀ c ∈ w, c.isAlphanum = true := by
  intro c hc
  have hmem : c ∈ letters s := flatten_words_eq_letters h ▸ List.mem_flatten_of_mem hw hc
  exact (List.mem_filter.mp hmem).2

theorem upperFirst_of_mem_words {w : List Char} (hw : w ∈ words s) :
    upperFirst w = w.modifyHead Char.toUpper :=
  upperFirst_of_lt fun c hc => lt_of_isAlphanum (isAlphanum_of_mem_words h hw c hc)

end Ascii

/-- A text of letters and digits is one word, unless it is empty. -/
theorem words_of_isAlphanum {s : List Char} (h : ∀ c ∈ s, c.isAlphanum = true) :
    words s = if s = [] then [] else [s] := by
  have hword (c : Char) (hc : c ∈ s) : isWordChar c = true := by
    rw [isWordChar_of_lt (lt_of_isAlphanum (h c hc)), h c hc]
  cases s with
  | nil => rfl
  | cons c cs =>
    obtain ⟨hc, hcs⟩ := List.forall_mem_cons.mp hword
    have hne : [] ++ [c] ≠ [] := List.cons_ne_nil c []
    rw [words, wordsAfter, if_pos hc, wordsAfter_of_isWordChar hne hcs]
    rfl

/-! ### Pascal and camel case -/

section Word

variable {s : List Char} (h : ∀ c ∈ s, c.isAlphanum = true)
include h

/-- In Pascal case a word gets a capital initial. -/
theorem pascalChars_of_isAlphanum : pascalChars s = s.modifyHead Char.toUpper := by
  have hupper := upperFirst_of_lt fun c hc => lt_of_isAlphanum (h c hc)
  rw [pascalChars, words_of_isAlphanum h]
  cases s with
  | nil => rfl
  | cons c cs => simpa using hupper

/-- In camel case a word gets a small initial. -/
theorem camelChars_of_isAlphanum : camelChars s = s.modifyHead Char.toLower := by
  have hlower := lowerFirst_of_lt fun c hc => lt_of_isAlphanum (h c hc)
  rw [camelChars, words_of_isAlphanum h]
  cases s with
  | nil => rfl
  | cons c cs => simpa using hlower

end Word

section Forms

variable {s : List Char} (h : ∀ c ∈ s, c.toNat < 128)
include h

/-- The Pascal-case form of an ASCII text has its letters and digits, in order and up to case. -/
theorem map_toLower_pascalChars :
    (pascalChars s).map Char.toLower = (letters s).map Char.toLower := by
  rw [← flatten_words_eq_letters h, pascalChars, List.map_flatMap, List.map_flatten,
    ← List.flatMap_def]
  refine List.flatMap_congr fun w hw => ?_
  rw [upperFirst_of_mem_words h hw]
  exact map_toLower_modifyHead fun c hc =>
    (case_of_lt (lt_of_isAlphanum (isAlphanum_of_mem_words h hw c hc))).1

/-- In Pascal case an ASCII text has a capital initial. -/
theorem modifyHead_toUpper_pascalChars :
    (pascalChars s).modifyHead Char.toUpper = pascalChars s := by
  rw [pascalChars]
  cases hwords : words s with
  | nil => rfl
  | cons w ws =>
    have hw : w ∈ words s := hwords ▸ List.mem_cons_self
    have hascii := isAlphanum_of_mem_words h hw
    obtain ⟨c, cs, rfl⟩ := List.exists_cons_of_ne_nil (ne_nil_of_mem_wordsAfter hw)
    obtain ⟨-, -, -, hc⟩ := case_of_lt (lt_of_isAlphanum (hascii c List.mem_cons_self))
    rw [List.flatMap_cons, upperFirst_of_mem_words h hw]
    simp [hc]

/-- The camel-case form of an ASCII text is the Pascal-case form with a small initial. -/
theorem camelChars_eq_modifyHead : camelChars s = (pascalChars s).modifyHead Char.toLower := by
  rw [camelChars, pascalChars]
  cases hwords : words s with
  | nil => rfl
  | cons w ws =>
    have hw : w ∈ words s := hwords ▸ List.mem_cons_self
    have hascii (c : Char) (hc : c ∈ w) :
        c.toNat < 128 := lt_of_isAlphanum (isAlphanum_of_mem_words h hw c hc)
    obtain ⟨c, cs, rfl⟩ := List.exists_cons_of_ne_nil (ne_nil_of_mem_wordsAfter hw)
    obtain ⟨hc, -⟩ := case_of_lt (hascii c List.mem_cons_self)
    dsimp only
    rw [List.flatMap_cons, upperFirst_of_lt hascii, lowerFirst_of_lt hascii]
    simp [hc]

/-- So does the camel-case form. -/
theorem map_toLower_camelChars :
    (camelChars s).map Char.toLower = (letters s).map Char.toLower := by
  have hpascal := isAlphanum_of_map_toLower_eq (map_toLower_pascalChars h)
  rw [camelChars_eq_modifyHead h, ← map_toLower_pascalChars h]
  exact map_toLower_modifyHead fun c hc => (case_of_lt (lt_of_isAlphanum (hpascal c hc))).2.1

/-- The camel-case form is its own one, and gives the Pascal-case form. -/
theorem forms_camelChars :
    camelChars (camelChars s) = camelChars s ∧ pascalChars (camelChars s) = pascalChars s := by
  have hword := isAlphanum_of_map_toLower_eq (map_toLower_camelChars h)
  have hpascal := isAlphanum_of_map_toLower_eq (map_toLower_pascalChars h)
  have hcase (c : Char) (hc : c ∈ pascalChars s) := case_of_lt (lt_of_isAlphanum (hpascal c hc))
  rw [camelChars_of_isAlphanum hword, pascalChars_of_isAlphanum hword, camelChars_eq_modifyHead h]
  constructor
  · exact modifyHead_modifyHead_of_forall fun c hc => (hcase c hc).2.1
  · rw [modifyHead_modifyHead_of_forall fun c hc => (hcase c hc).2.2.1,
      modifyHead_toUpper_pascalChars h]

/-- The Pascal-case form is its own one, and gives the camel-case form. -/
theorem forms_pascalChars :
    pascalChars (pascalChars s) = pascalChars s ∧ camelChars (pascalChars s) = camelChars s := by
  have hword := isAlphanum_of_map_toLower_eq (map_toLower_pascalChars h)
  rw [pascalChars_of_isAlphanum hword, camelChars_of_isAlphanum hword, camelChars_eq_modifyHead h]
  exact ⟨modifyHead_toUpper_pascalChars h, rfl⟩

end Forms

/-! ### Constants -/

/-- The letters and digits of a constant: those of a name in capitals, with `V` in front of a digit,
and those of `EMPTY` if the name has none. -/
def constantLetters : List Char → List Char
  | [] => ['E', 'M', 'P', 'T', 'Y']
  | c :: cs => (if c.isDigit then ['V'] else []) ++ (c :: cs).map Char.toUpper

/-- Breaking a text adds nothing that is kept. -/
theorem filter_breakHumpsAfter {p : Char → Bool} (hp : p '_' = false) (before : Option Char)
    (s : List Char) :
    (breakHumpsAfter before s).filter p = s.filter p := by
  induction s generalizing before with
  | nil => rfl
  | cons c s ih =>
    rw [breakHumpsAfter]
    split_ifs
    · simp [hp, List.filter_cons, ih]
    · simp [List.filter_cons, ih]

section Constant

variable {s : List Char} (h : ∀ c ∈ s, c.toNat < 128)
include h

/-- The letters and digits of a text in lower case. -/
theorem letters_lower : letters (lower s) = (letters s).map Char.toLower := by
  have halphanum (c : Char) (hc : c ∈ s) : c.toLower.isAlphanum = c.isAlphanum :=
    forall_ascii (P := fun c => c.toLower.isAlphanum = c.isAlphanum) (by decide) (h c hc)
  rw [lower_of_lt h, letters, List.filter_map]
  exact congrArg (List.map Char.toLower) (List.filter_congr halphanum)

/-- Together the groups of an ASCII text are its letters and digits in capitals. -/
theorem flatten_groups : (groups s).flatten = (letters s).map Char.toUpper := by
  have hlower := lt_of_mem_lower_breakHumps h
  have hbroken : ∀ c ∈ breakHumps s, c.toNat < 128 := fun c hc =>
    (mem_of_mem_breakHumps hc).elim (fun h => h ▸ by decide) (h c)
  have hletters : letters (breakHumps s) = letters s := filter_breakHumpsAfter (by decide) none s
  have hcase (c : Char) (hc : c ∈ letters s) : c.toLower.toUpper = c.toUpper :=
    (case_of_lt (lt_of_mem_letters hc)).2.2.1
  calc (groups s).flatten = upper (words (lower (breakHumps s))).flatten := (upper_flatten _).symm
    _ = upper (letters (lower (breakHumps s))) := by rw [flatten_words_eq_letters hlower]
    _ = ((letters s).map Char.toLower).map Char.toUpper := by
      rw [upper_of_lt fun c hc => lt_of_mem_letters hc, letters_lower hbroken, hletters]
    _ = (letters s).map Char.toUpper := by
      rw [List.map_map]
      exact List.map_congr_left hcase

/-- The constant form without underscores. -/
theorem filter_constantBody :
    (constantBody s).filter (· != '_') = (letters s).map Char.toUpper := by
  have hcapital {g : List Char} (hg : g ∈ groups s) (c : Char) (hc : c ∈ g) :
      (c != '_') = true := by
    have hc := (isCapital_of_mem_groups h hg).2 c hc
    simp only [bne_iff_ne]
    rintro rfl
    exact absurd hc (by decide)
  rw [constantBody_eq, filter_intercalate rfl fun g hg c hc => hcapital hg c hc, flatten_groups h]

/-- The constant form starts with the first letter or digit. -/
theorem head?_constantBody : (constantBody s).head? = ((letters s).map Char.toUpper).head? := by
  rw [constantBody_eq, ← flatten_groups h]
  cases hgroups : groups s with
  | nil => rfl
  | cons g rest =>
    obtain ⟨hne, -⟩ := isCapital_of_mem_groups h (hgroups ▸ List.mem_cons_self)
    obtain ⟨c, cs, rfl⟩ := List.exists_cons_of_ne_nil hne
    simp [intercalate_cons]

/-- The constant form of an ASCII text has its letters and digits, and is `EMPTY` if there are
none. -/
theorem filter_constantChars : (constantChars s).filter (· != '_') = constantLetters (letters s) ∧
    (letters s = [] → constantChars s = ['E', 'M', 'P', 'T', 'Y']) := by
  have hfilter := filter_constantBody h
  have hhead := head?_constantBody h
  rw [constantChars]
  cases hletters : letters s with
  | nil =>
    rw [hletters] at hhead
    rw [List.head?_eq_none_iff.mp hhead]
    exact ⟨rfl, fun _ => rfl⟩
  | cons c cs =>
    have hc : c ∈ letters s := hletters ▸ List.mem_cons_self
    have hdigit : isDigitLike c.toUpper = c.isDigit := by
      exact forall_ascii (P := fun c => isDigitLike c.toUpper = c.isDigit) (by decide)
        (lt_of_mem_letters hc)
    rw [hletters] at hhead hfilter
    obtain ⟨rest, hbody⟩ := List.head?_eq_some_iff.mp hhead
    rw [hbody] at hfilter ⊢
    refine ⟨?_, fun hnil => absurd hnil (List.cons_ne_nil c cs)⟩
    dsimp only
    rw [hdigit, constantLetters, ← hfilter]
    split_ifs
    · rfl
    · rfl

end Constant

/-! ### Names -/

/-- In camel and in Pascal case an ASCII name has nothing but its letters and digits, in order and
up to their case, and each of the two forms gives itself and the other one again. A constant has
them in capitals, underscores apart, with `V` in front of a digit, and is `EMPTY` if there are
none. -/
theorem styles_keep_letters {name : String} (h : IsAscii name) :
    ((∀ c ∈ (camel name).toList, c.isAlphanum = true) ∧
      (camel name).toList.map Char.toLower = (letters name.toList).map Char.toLower) ∧
    ((∀ c ∈ (pascal name).toList, c.isAlphanum = true) ∧
      (pascal name).toList.map Char.toLower = (letters name.toList).map Char.toLower) ∧
    (camel (camel name) = camel name ∧ pascal (pascal name) = pascal name) ∧
    (pascal (camel name) = pascal name ∧ camel (pascal name) = camel name) ∧
    ((constant name).toList.filter (· != '_') = constantLetters (letters name.toList) ∧
      (letters name.toList = [] → constant name = "EMPTY")) := by
  obtain ⟨hcamelCamel, hpascalCamel⟩ := forms_camelChars h
  obtain ⟨hpascalPascal, hcamelPascal⟩ := forms_pascalChars h
  obtain ⟨hconstant, hempty⟩ := filter_constantChars h
  simp only [camel, pascal, constant, String.toList_ofList]
  refine ⟨⟨?_, map_toLower_camelChars h⟩, ⟨?_, map_toLower_pascalChars h⟩, ⟨?_, ?_⟩, ⟨?_, ?_⟩,
    hconstant, ?_⟩
  · exact isAlphanum_of_map_toLower_eq (map_toLower_camelChars h)
  · exact isAlphanum_of_map_toLower_eq (map_toLower_pascalChars h)
  · rw [hcamelCamel]
  · rw [hpascalPascal]
  · rw [hpascalCamel]
  · rw [hcamelPascal]
  · intro hnone
    rw [hempty hnone]

/-- A name with a digit in front, a run of capitals that ends at a hump, and separators. -/
theorem styles_keep_letters_server :
    IsAscii "3d-HTTPServer_id" ∧ letters "3d-HTTPServer_id".toList = "3dHTTPServerid".toList ∧
      camel "3d-HTTPServer_id" = "3dHTTPServerId" ∧ pascal (camel "3d-HTTPServer_id") =
        pascal "3d-HTTPServer_id" ∧
      constant "3d-HTTPServer_id" = "V_3D_HTTP_SERVER_ID" ∧
      (constant "3d-HTTPServer_id").toList.filter (· != '_') = "V3DHTTPSERVERID".toList := by
  have hascii : IsAscii "3d-HTTPServer_id" := by decide
  have hletters : letters "3d-HTTPServer_id".toList = "3dHTTPServerid".toList := by decide
  have hconstant : constantLetters "3dHTTPServerid".toList = "V3DHTTPSERVERID".toList := by decide
  obtain ⟨-, -, -, ⟨hpascal, -⟩, hkept, -⟩ := styles_keep_letters hascii
  rw [hletters, hconstant] at hkept
  exact ⟨hascii, hletters, by decide, hpascal, by decide, hkept⟩

end Naming

end ServiceContract
