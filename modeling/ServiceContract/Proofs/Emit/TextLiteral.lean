import ServiceContract.Emit.Kotlin
import ServiceContract.Proofs.Text.Replace

/-!
# Texts as literals

In a Kotlin literal a double quote ends the text, a dollar sign starts a template, and a backslash
takes the next character along. Where a text has one of these characters, its literal has a
backslash in front. The three characters are dealt with one after the other, the backslash first, so
that no backslash that is put in is doubled later on.

Whatever follows a literal, a reader comes to the end of it at its last double quote and has the
text then.

## Main definitions

* `Kotlin.Denotes`: the texts that stand between the double quotes of literals.
* `Kotlin.readBody`, `Kotlin.readLiteral`: a reader of literals.

## Main results

* `Kotlin.quotedChars_eq`: the three replacements are one.
* `Kotlin.Denotes.readBody_append`: the reader at the text between the double quotes.
* `Kotlin.quoted_reads_back`: literals of texts.
-/

namespace ServiceContract.Kotlin

open Text

/-! ### Literals -/

/-- The character means something else than itself in a literal. -/
def IsSpecial (c : Char) : Prop :=
  c = '\\' ∨ c = '"' ∨ c = '$'

instance (c : Char) : Decidable (IsSpecial c) :=
  inferInstanceAs (Decidable (_ ∨ _))

/-- Between double quotes the first text stands for the second one: a special character has a
backslash in front, and no other one has. -/
inductive Denotes : List Char → List Char → Prop
  | nil : Denotes [] []
  | escaped {c : Char} {body s : List Char} (hc : IsSpecial c) (h : Denotes body s) :
    Denotes ('\\' :: c :: body) (c :: s)
  | plain {c : Char} {body s : List Char} (hc : ¬ IsSpecial c) (h : Denotes body s) :
    Denotes (c :: body) (c :: s)

/-- What a reader takes from behind the first double quote of a literal, and what it leaves behind
the last one. A backslash makes the next character literal. The reader fails where a template
starts, and where no double quote ends the text. -/
def readBody : List Char → Option (List Char × List Char)
  | [] => none
  | ['\\'] => none
  | '\\' :: c :: s => (readBody s).map fun read => (c :: read.1, read.2)
  | c :: s =>
    if c = '"' then some ([], s)
    else if c = '$' then none
    else (readBody s).map fun read => (c :: read.1, read.2)

/-- The text of the literal in front, and what stands behind the literal. -/
def readLiteral : List Char → Option (List Char × List Char)
  | '"' :: s => readBody s
  | _ => none

/-! ### Escapes -/

/-- The character as it stands in a literal. -/
def escape (c : Char) : List Char :=
  if IsSpecial c then ['\\', c] else [c]

/-- The three replacements are one: none of them changes what another one has put in. -/
theorem quotedChars_eq (s : List Char) : quotedChars s = '"' :: s.flatMap escape ++ ['"'] := by
  have hescape (c : Char) : ((if c = '\\' then ['\\', '\\'] else [c]).flatMap fun c =>
      (if c = '"' then ['\\', '"'] else [c]).flatMap fun c =>
        if c = '$' then ['\\', '$'] else [c]) = escape c := by
    by_cases hbackslash : c = '\\'
    · subst hbackslash
      rfl
    · by_cases hquote : c = '"'
      · subst hquote
        rfl
      · by_cases hdollar : c = '$'
        · subst hdollar
          rfl
        · simp [escape, IsSpecial, hbackslash, hquote, hdollar]
  rw [quotedChars]
  simp only [replaceAll_singleton, List.flatMap_assoc, hescape]

/-- A backslash and a double quote at the end, and what would be a template. -/
example : quotedChars ['$', 'a', '\\', '"'] =
    ['"', '\\', '$', 'a', '\\', '\\', '\\', '"', '"'] := by
  decide

theorem denotes_flatMap_escape (s : List Char) : Denotes (s.flatMap escape) s := by
  induction s with
  | nil => exact .nil
  | cons c s ih =>
    rw [List.flatMap_cons, escape]
    split_ifs with hc
    · exact .escaped hc ih
    · exact .plain hc ih

/-- A reader takes what stands for a text up to the double quote behind it. -/
theorem Denotes.readBody_append {body s : List Char} (h : Denotes body s) (rest : List Char) :
    readBody (body ++ '"' :: rest) = some (s, rest) := by
  induction h with
  | nil => rfl
  | escaped hc h ih => simp [readBody, ih]
  | @plain c body s hc h ih =>
    obtain ⟨hbackslash, hquote, hdollar⟩ : c ≠ '\\' ∧ c ≠ '"' ∧
      c ≠ '$' := by simpa [IsSpecial] using hc
    simp [readBody, hbackslash, hquote, hdollar, ih]

/-! ### Texts -/

/-- A literal stands between two double quotes. What is between them stands for the text, so that
there is no double quote, no dollar sign and no backslash without a backslash of its own in front. A
reader takes from the literal exactly the text and leaves exactly what follows the literal. So
different texts have different literals. -/
theorem quoted_reads_back (s : String) :
    (∃ body, (quoted s).toList = '"' :: body ++ ['"'] ∧ Denotes body s.toList) ∧
    (∀ rest, readLiteral ((quoted s).toList ++ rest) = some (s.toList, rest)) ∧
    ∀ t, quoted t = quoted s ↔ t = s := by
  have hliteral (s : String) : (quoted s).toList = '"' :: s.toList.flatMap escape ++ ['"'] := by
    rw [quoted, String.toList_ofList, quotedChars_eq]
  have hread (s : String) (rest : List Char) :
      readLiteral ((quoted s).toList ++ rest) = some (s.toList, rest) := by
    rw [hliteral, List.append_assoc]
    exact (denotes_flatMap_escape s.toList).readBody_append rest
  refine ⟨⟨_, hliteral s, denotes_flatMap_escape s.toList⟩, hread s, fun t =>
    ⟨fun h => ?_, congrArg quoted⟩⟩
  have htexts := (hread t []).symm.trans (h ▸ hread s [])
  simpa [String.toList_inj] using htexts

end ServiceContract.Kotlin
