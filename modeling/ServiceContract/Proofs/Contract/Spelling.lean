import ServiceContract.Emit.Render
import ServiceContract.Proofs.Contract.Run
import ServiceContract.Proofs.Naming
import ServiceContract.Proofs.Schema.Name

/-!
# The spelling of declared types

In the text of a contract a declared type stands under an identifier made from its name, and is
mentioned by the name itself. The two spellings are the same unless the name starts with a digit, or
is one of the three capitalized keywords of Python: the names that types get are capitalized, and no
other keyword is.

## Main definitions

* `Naming.StartsWithDigit`: names with a digit in front.
* `Session.KeepsCapitalized`: how the names that are taken go on.

## Main results

* `Python.typeText_eq_identifier_iff`, `Kotlin.typeText_eq_identifier_iff`: the two spellings of a
  name.
* `Contract.capitalized_of_build`: the names of the declarations of a contract.
* `Contract.spelled_as_declared_iff`: the two spellings in a contract.
-/

namespace ServiceContract

open Build Naming

/-! ### Identifiers -/

/-- The name has a digit in front. -/
def Naming.StartsWithDigit (name : String) : Prop :=
  name.toList.head?.any Text.isDigitLike = true

instance (name : String) : Decidable (StartsWithDigit name) :=
  inferInstanceAs (Decidable (_ = _))

/-- A text that is longer than a name is another one. -/
theorem ne_of_length_lt {name text : String} (h : name.toList.length < text.toList.length) :
    name ≠ text := by
  rintro rfl
  exact Nat.lt_irrefl _ h

namespace Python

/-- The keywords that are capitalized. -/
def capitalKeywords : List String := ["False", "None", "True"]

theorem mem_keywords_iff {name : String} (h : Capitalized name) :
    name ∈ keywords ↔ name ∈ capitalKeywords := by
  have hsmall : ∀ k ∈ keywords, k ∈ capitalKeywords ∨ k.toList.head?.any Char.isLower = true := by
    decide
  have hkeywords : ∀ k ∈ capitalKeywords, k ∈ keywords := by decide
  refine ⟨fun hmem => (hsmall name hmem).resolve_right ?_, hkeywords name⟩
  obtain ⟨c, cs, hname, hlower⟩ := h
  rw [hname]
  simp [hlower]

/-- A capitalized name is mentioned as it is declared unless it starts with a digit or is a
keyword. -/
theorem typeText_eq_identifier_iff {name : String} (h : Capitalized name) :
    typeText (.declared name) = identifier name ↔
      ¬ StartsWithDigit name ∧ name ∉ capitalKeywords := by
  rw [← mem_keywords_iff h]
  obtain ⟨c, cs, hname, -⟩ := h
  rw [typeText, identifier, StartsWithDigit, hname]
  dsimp only [List.head?_cons, Option.any_some]
  by_cases hdigit : Text.isDigitLike c = true
  · refine iff_of_false (ne_of_length_lt ?_) fun hnot => hnot.1 hdigit
    rw [if_pos hdigit]
    split_ifs
    · simp only [String.toList_append, List.length_append]
      exact Nat.lt_add_right 1 (Nat.lt_add_of_pos_left Nat.one_pos)
    · simp
  · rw [if_neg hdigit]
    by_cases hkeyword : name ∈ keywords
    · refine iff_of_false (ne_of_length_lt ?_) fun hnot => hnot.2 hkeyword
      simp [hkeyword]
    · exact iff_of_true (by simp [hkeyword]) ⟨hdigit, hkeyword⟩

end Python

namespace Kotlin

theorem not_mem_keywords {name : String} (h : Capitalized name) : name ∉ keywords := by
  have hsmall : ∀ k ∈ keywords, k.toList.head?.any Char.isLower = true := by decide
  intro hmem
  obtain ⟨c, cs, hname, hlower⟩ := h
  have hhead := hsmall name hmem
  rw [hname] at hhead
  simp [hlower] at hhead

/-- A capitalized name is mentioned as it is declared unless it starts with a digit. -/
theorem typeText_eq_identifier_iff {name : String} (h : Capitalized name) :
    typeText (.declared name) = identifier name ↔ ¬ StartsWithDigit name := by
  have hkeyword : keywords.contains name = false := by simpa using not_mem_keywords h
  have hempty : name.isEmpty = false := by
    obtain ⟨c, cs, hname, -⟩ := h
    refine Bool.eq_false_iff.mpr fun hempty => ?_
    rw [String.isEmpty_iff.mp hempty] at hname
    cases hname
  rw [typeText, identifier, StartsWithDigit, hkeyword, hempty, Bool.or_false, Bool.false_or]
  split_ifs with hdigit
  · refine iff_of_false (ne_of_length_lt ?_) fun hnot => hnot hdigit
    simp only [String.toList_append, List.length_append]
    exact Nat.lt_add_right 1 (Nat.lt_add_of_pos_left Nat.one_pos)
  · exact iff_of_true rfl hdigit

end Kotlin

/-! ### Names that are taken -/

namespace Session

/-- If all names that are taken before are capitalized, all that are taken afterwards are. -/
def KeepsCapitalized (s t : Session) : Prop :=
  (∀ n ∈ s.taken, Capitalized n) → ∀ n ∈ t.taken, Capitalized n

instance : IsPreorder Session KeepsCapitalized where
  refl _ := id
  trans _ _ _ h h' := h' ∘ h

end Session

open Session

/-- A name that is made from another one and taken is capitalized. -/
theorem claim_keepsCapitalized (name : String) {default : String} (h : Capitalized default) :
    Moves KeepsCapitalized (claim (nonEmpty (pascal name) default)) := by
  intro s hs n hn
  rcases List.mem_cons.mp hn with rfl | hn
  · exact (capitalized_nonEmpty_pascal name h).freshName s.taken
  · exact hs n hn

theorem capitalized_schema : Capitalized "Schema" := ⟨'S', "chema".toList, rfl, rfl⟩

theorem capitalized_inline : Capitalized "Inline" := ⟨'I', "nline".toList, rfl, rfl⟩

theorem reserveReference_keepsCapitalized (ref : String) :
    Moves KeepsCapitalized (reserveReference ref) := by
  intro s
  cases hc : componentName? s.components ref with
  | some name =>
    rw [reserveReference_component hc]
    exact id
  | none =>
    rw [reserveReference_fresh hc]
    exact claim_keepsCapitalized (referenceName ref) capitalized_schema s

theorem reserveInline_keepsCapitalized (schema : Node) (hint : String) :
    Moves KeepsCapitalized (reserveInline schema hint) :=
  fun s => claim_keepsCapitalized hint capitalized_inline s

/-- The names that are taken in a resolution are capitalized. -/
theorem Resolver.resolveWithin_keepsCapitalized {r : Resolver} (fuel : Nat) (schema : Node)
    (hint : String) :
    Moves KeepsCapitalized (r.resolveWithin fuel schema hint) := by
  induction fuel generalizing schema hint with
  | zero => exact .fail _
  | succ fuel ih =>
    have hdeclare (n : Node) (name : String) :
        Moves KeepsCapitalized (r.declareType (r.resolveWithin fuel) n name) :=
      declareType_moves ih (fun _ _ => id) n name
    refine resolveStep_moves ih (resolveReference_moves (fun {ref n s} _ _ _ => ⟨?_, fun _ => id⟩)
      fun {ref n s} _ _ name t hname => ?_)
      (resolveInline_moves fun {n hint s} _ name t hname => ?_) schema hint
    · have hstep := ih n (pascal (referenceName ref)) { s with resolving := ref :: s.resolving }
      rw [whileResolving_apply]
      exact hstep
    · have hreserve := reserveReference_keepsCapitalized ref s
      rw [hname] at hreserve
      exact trans_of KeepsCapitalized hreserve (hdeclare n name t)
    · have hreserve := reserveInline_keepsCapitalized n hint s
      rw [hname] at hreserve
      exact trans_of KeepsCapitalized hreserve (hdeclare n name t)

/-- At the start only the names of components are taken. -/
theorem Session.capitalized_start {doc : Document} {s : Session} (h : start doc = .ok s) :
    ∀ n ∈ s.taken, Capitalized n := by
  have hclaims (keys : List Node) : Moves KeepsCapitalized (claimComponents keys) := by
    induction keys with
    | nil => exact .pure _
    | cons key keys ih =>
      refine .lift_bind fun text _ => .bind ?_ fun _ => ih
      exact .bind (claim_keepsCapitalized text capitalized_schema) fun name => fun _ => id
  obtain ⟨keys, -, hrun⟩ := start_eq_ok h
  have hkeys := hclaims keys blank
  rw [hrun] at hkeys
  exact hkeys fun n hn => absurd hn List.not_mem_nil

/-! ### Contracts -/

namespace Contract

/-- The names of declarations are capitalized. -/
theorem capitalized_of_build {doc : Document} {options : Options} {c : Contract}
    (h : build doc options = .ok c) : ∀ d ∈ c.declarations, Capitalized d.name := by
  obtain ⟨name, title, version, start, paths, s, -, -, -, hstart, -, hrun, rfl⟩ :=
    build_eq_ok_iff.mp h
  let r := resolver doc options
  have hparallel : Parallel r (fun _ => True) (buildPaths r options.includeResponse paths)
      (buildPaths r options.includeResponse paths) :=
    buildPaths_parallel r.doc.true_hereditary _ fun _ _ => trivial
  have htaken : KeepsCapitalized start s := by
    have hmoves := hparallel.moves (R := KeepsCapitalized)
      (Resolver.resolveWithin_keepsCapitalized r.stepBound) (fun _ _ => id) (fun _ _ => id) start
    rwa [hrun] at hmoves
  have hmakes : r.Makes start s := by
    have hmoves := hparallel.moves (R := r.Makes)
      (fun n hint s => (Resolver.Partial.resolveWithin r.stepBound n hint s).makes.2)
      (fun _ _ => .of_eq rfl rfl rfl rfl rfl) (fun _ _ => .of_eq rfl rfl rfl rfl rfl) start
    rwa [hrun] at hmoves
  have hapart : r.Apart s := hmakes.apart (Resolver.start_apart hstart)
  obtain ⟨made, hdeclarations, hnamed, -⟩ := hmakes.made
  intro d hd
  have hd : d ∈ s.declarations := hd
  rw [hdeclarations, start_eq hstart] at hd
  obtain ⟨p, hp, rfl⟩ := List.mem_map.mp hd
  exact htaken (capitalized_start hstart) _ (hapart.taken (hnamed p hp))

/-- In the text of a contract a declared type is mentioned as it is declared, unless its name starts
with a digit, or the text is in Python and the name is one of its keywords. -/
theorem spelled_as_declared_iff {doc : Document} {options : Options} {c : Contract}
    (h : build doc options = .ok c) : ∀ n ∈ c.declarations.map Declaration.name,
      (Python.typeText (.declared n) = Python.identifier n ↔
        ¬ StartsWithDigit n ∧ n ∉ Python.capitalKeywords) ∧
      (Kotlin.typeText (.declared n) = Kotlin.identifier n ↔ ¬ StartsWithDigit n) := by
  intro n hn
  obtain ⟨d, hd, rfl⟩ := List.mem_map.mp hn
  have hcapitalized := capitalized_of_build h d hd
  exact ⟨Python.typeText_eq_identifier_iff hcapitalized,
    Kotlin.typeText_eq_identifier_iff hcapitalized⟩

/-- A document with an operation whose result is a record with the given name. -/
def recordNamed (name : String) : Document :=
  .ofValue (.map [
    (.text "paths", .map [(.text "/record", .map [(.text "get", .map [
      (.text "operationId", .text "getRecord"),
      (.text "responses", .map [(.text "200", .map [(.text "content", .map [
        (.text "application/json", .map [(.text "schema", .map [
          (.text "$ref", .text ("#/components/schemas/" ++ name))])])])])])])])]),
    (.text "components", .map [(.text "schemas", .map [
      (.text name, .map [(.text "properties", .map [(.text "code", .map [])])])])])])

/-- The contract of that document declares the record under its name. -/
theorem exists_build_recordNamed (name : String)
    (h : (build (recordNamed name) .standard).map (fun c => c.declarations.map Declaration.name) =
      .ok [name]) :
    ∃ c, build (recordNamed name) .standard = .ok c ∧
      name ∈ c.declarations.map Declaration.name := by
  cases hbuild : build (recordNamed name) .standard with
  | error fault =>
    rw [hbuild] at h
    cases h
  | ok c =>
    rw [hbuild] at h
    have hnames : c.declarations.map Declaration.name = [name] := Except.ok.inj h
    exact ⟨c, rfl, hnames ▸ List.mem_singleton_self name⟩

/-- A record with a digit in front is mentioned by another name, one with a letter is not. -/
theorem spelled_as_declared_iff_recordNamed :
    (∃ c, build (recordNamed "Pet") .standard = .ok c ∧
      "Pet" ∈ c.declarations.map Declaration.name ∧
      Python.typeText (.declared "Pet") = Python.identifier "Pet" ∧
      Kotlin.typeText (.declared "Pet") = Kotlin.identifier "Pet") ∧
    ∃ c, build (recordNamed "404Error") .standard = .ok c ∧
      "404Error" ∈ c.declarations.map Declaration.name ∧
      Python.typeText (.declared "404Error") ≠ Python.identifier "404Error" ∧
      Kotlin.typeText (.declared "404Error") ≠ Kotlin.identifier "404Error" := by
  obtain ⟨c, hc, hpet⟩ := exists_build_recordNamed "Pet" rfl
  obtain ⟨c', hc', herror⟩ := exists_build_recordNamed "404Error" rfl
  obtain ⟨hpython, hkotlin⟩ := spelled_as_declared_iff hc "Pet" hpet
  obtain ⟨hpython', hkotlin'⟩ := spelled_as_declared_iff hc' "404Error" herror
  have hletter : ¬ StartsWithDigit "Pet" := by decide
  have hdigit : StartsWithDigit "404Error" := by decide
  exact ⟨⟨c, hc, hpet, hpython.mpr ⟨hletter, by decide⟩, hkotlin.mpr hletter⟩,
    c', hc', herror, fun h => (hpython'.mp h).1 hdigit, fun h => hkotlin'.mp h hdigit⟩

/-- Not every declared type is mentioned as it is declared. -/
theorem not_spelled_as_declared_digit : ¬ ∀ doc options c, build doc options = .ok c →
    ∀ n ∈ c.declarations.map Declaration.name,
      Python.typeText (.declared n) = Python.identifier n ∧
      Kotlin.typeText (.declared n) = Kotlin.identifier n := by
  intro hall
  obtain ⟨c, hc, herror⟩ := exists_build_recordNamed "404Error" rfl
  have hpython := (hall _ _ c hc _ herror).1
  exact absurd hpython (by decide)

end Contract

end ServiceContract
