import ServiceContract.Proofs.Contract.Visit
import ServiceContract.Proofs.Emit.Identifier
import ServiceContract.Proofs.Emit.Signature
import ServiceContract.Proofs.Operation.Parameter
import ServiceContract.Proofs.Operation.ParameterName

/-!
# The identifiers of parameters

Parameters are told apart by their names, before these become identifiers. The name of a parameter
is its base name, possibly with a number behind it. The base name is the camel-case form of the name
in the document, which is made of letters and digits, or that name itself if it has neither. From
this it follows what may go wrong in a Python definition with ASCII names:

* a name without letters and digits is no identifier, unless it is made of underscores;
* a parameter whose camel-case form is `self` has the identifier that stands in front of all
  parameters;
* the underscore in front of a digit, or for the empty name, makes the name of another parameter.

## Main definitions

* `Method.Numbers`: how the names of parameters come from their base names.

## Main results

* `numbers_of_buildMethod`: the names of the parameters of a method.
* `Contract.parameterIdentifiers_of_build`: the identifiers in the definitions of a contract.
-/

namespace ServiceContract

open Build Naming

/-! ### Numbers behind names -/

/-- A number behind a name is written in digits. -/
theorem toList_numbered (base : String) (k : Nat) :
    (numbered "" base k).toList = base.toList ∨ ∃ ds, ds ≠ [] ∧ (∀ d ∈ ds, d.isDigit = true) ∧
      (numbered "" base k).toList = base.toList ++ ds := by
  cases k with
  | zero => exact .inl rfl
  | succ k =>
    refine .inr ⟨Nat.toDigits 10 (k + 2), Nat.toDigits_ne_nil,
      fun d hd => Nat.isDigit_of_mem_toDigits (by decide) (by decide) hd, ?_⟩
    simp [numbered]

/-- A spelling of a name that ends in no digit is the name. -/
theorem eq_of_numbered {base text : String} {k : Nat} {c : Char} (h : numbered "" base k = text)
    (hlast : text.toList.getLast? = some c) (hc : c.isDigit = false) : base = text := by
  rw [← h] at hlast ⊢
  rcases toList_numbered base k with heq | ⟨ds, hne, hdigits, heq⟩
  · exact String.toList_injective heq.symm
  · rw [heq, List.getLast?_append_of_ne_nil _ hne] at hlast
    exact absurd (hdigits c (List.mem_of_getLast? hlast)) (by rw [hc]; exact Bool.false_ne_true)

/-- All characters of a spelling have a property that digits have, if those of the name do. -/
theorem forall_mem_numbered_iff {P : Char → Prop} (hP : ∀ d : Char, d.isDigit = true → P d)
    (base : String) (k : Nat) :
    (∀ c ∈ (numbered "" base k).toList, P c) ↔ ∀ c ∈ base.toList, P c := by
  rcases toList_numbered base k with heq | ⟨ds, -, hdigits, heq⟩
  · rw [heq]
  · rw [heq, List.forall_mem_append]
    exact and_iff_left fun d hd => hP d (hdigits d hd)

/-! ### Names of parameters -/

section Renaming

variable (taken : List String) (bindings : List Binding)

/-- A renamed binding has the name of a binding with a number behind it. -/
theorem renameBindings_numbered : ∀ c ∈ renameBindings taken bindings,
    ∃ b ∈ bindings, c.wireName = b.wireName ∧ ∃ k, c.name = numbered "" b.name k := by
  induction bindings generalizing taken with
  | nil => exact fun c hc => absurd hc List.not_mem_nil
  | cons b bindings ih =>
    obtain ⟨k, hname, -⟩ := exists_freshName "" taken b.name
    refine List.forall_mem_cons.mpr ⟨⟨b, List.mem_cons_self, rfl, k, hname⟩, fun c hc => ?_⟩
    obtain ⟨b', hb', hsame⟩ := ih _ c hc
    exact ⟨b', List.mem_cons_of_mem b hb', hsame⟩

/-- The name of a binding is taken or is that of a renamed binding. -/
theorem mem_or_mem_renameBindings :
    ∀ b ∈ bindings, b.name ∈ taken ∨ b.name ∈ (renameBindings taken bindings).map Binding.name := by
  induction bindings generalizing taken with
  | nil => exact fun b hb => absurd hb List.not_mem_nil
  | cons b bindings ih =>
    refine List.forall_mem_cons.mpr ⟨?_, fun b' hb' => ?_⟩
    · by_cases hb : b.name ∈ taken
      · exact .inl hb
      · exact .inr (freshName_of_not_mem hb ▸ List.mem_cons_self)
    · rcases ih (freshName "" taken b.name :: taken) b' hb' with h | h
      · rcases List.mem_cons.mp h with h | h
        · exact .inr (h ▸ List.mem_cons_self)
        · exact .inl h
      · exact .inr (List.mem_cons_of_mem _ h)

end Renaming

/-- The names of the parameters are different, each is the base name with a number behind it, and
the base name of each is the name of one of them. -/
structure Method.Numbers (m : Method) : Prop where
  numbered : ∀ p ∈ m.parameters, ∃ k, p.name = ServiceContract.numbered "" p.baseName k
  base : ∀ p ∈ m.parameters, p.baseName ∈ m.parameters.map Binding.name
  nodup : (m.parameters.map Binding.name).Nodup

theorem baseName_of_bindParameters {r : Resolver} {pathItem operation : Node} {owner : String}
    {s t : Session} {bound : List Binding}
    (h : bindParameters r pathItem operation owner s = (.ok bound, t)) :
    ∀ b ∈ bound, b.name = b.baseName := by
  obtain ⟨chosen, -, h⟩ := lift_bind_eq_ok.mp h
  obtain ⟨⟨⟩, u, -, h⟩ := bind_eq_ok.mp h
  exact (binds_of_bindLocations h).baseName

theorem BodyParameter.baseName {r : Resolver} {operation : Node} {owner : String} {s t : Session}
    {body : List Binding} (h : BodyParameter r operation owner s body t) :
    ∀ p ∈ body, p.name = p.baseName := by
  cases h with
  | absent => exact fun p hp => absurd hp List.not_mem_nil
  | present =>
    have hname : requestName = nonEmpty (camel requestName) requestName := by decide
    exact List.forall_mem_singleton.mpr hname

theorem baseName_responseHandles (includeResponse : Bool) :
    ∀ p ∈ responseHandles includeResponse, p.name = p.baseName := by
  cases includeResponse with
  | true => exact List.forall_mem_singleton.mpr rfl
  | false => exact fun p hp => absurd hp List.not_mem_nil

/-- The names of the parameters of a method. -/
theorem numbers_of_buildMethod {r : Resolver} {includeResponse : Bool} {path : Scalar}
    {pathItem : Node} {httpMethod : String} {operation : Node} {s t : Session} {m : Method}
    (h : buildMethod r includeResponse path pathItem httpMethod operation s = (.ok m, t)) :
    m.Numbers := by
  obtain ⟨id, produces, returnType, consumes, body, bound, summary, s₁, s₂, s₃, -, -, hbody,
    hbound, -, rfl⟩ :=
    buildMethod_eq_ok h
  have hparameter := bodyParameter_of_buildBody hbody
  have hnames := baseName_of_bindParameters hbound
  have hfixed : ∀ p ∈ body ++ responseHandles includeResponse, p.name = p.baseName :=
    List.forall_mem_append.mpr ⟨hparameter.baseName, baseName_responseHandles includeResponse⟩
  have hmem {p : Binding} :
      p ∈ body ++ renameBindings ((body ++ responseHandles includeResponse).map Binding.name)
        bound ++ responseHandles includeResponse ↔ p ∈ body ++ responseHandles includeResponse ∨
      p ∈ renameBindings ((body ++ responseHandles includeResponse).map Binding.name) bound := by
    simp only [List.mem_append]
    tauto
  have hrenamed :=
    renameBindings_numbered ((body ++ responseHandles includeResponse).map Binding.name) bound
  have hkept :=
    mem_or_mem_renameBindings ((body ++ responseHandles includeResponse).map Binding.name) bound
  have hname {p : Binding} (hp : p ∈ body ++ responseHandles includeResponse ∨
      p ∈ renameBindings ((body ++ responseHandles includeResponse).map Binding.name) bound) :
      p.name ∈ (body ++
        renameBindings ((body ++ responseHandles includeResponse).map Binding.name) bound ++
        responseHandles includeResponse).map Binding.name :=
    List.mem_map_of_mem (hmem.mpr hp)
  refine ⟨fun p hp => ?_, fun p hp => ?_, nodup_parameters hparameter includeResponse bound⟩
  · rcases hmem.mp hp with hp | hp
    · exact ⟨0, hfixed p hp⟩
    · obtain ⟨b, hb, hwire, k, hk⟩ := hrenamed p hp
      refine ⟨k, ?_⟩
      rw [hk, hnames b hb, Binding.baseName, Binding.baseName, hwire]
  · rcases hmem.mp hp with hp | hp
    · exact hfixed p hp ▸ hname (.inl hp)
    · obtain ⟨b, hb, hwire, -⟩ := hrenamed p hp
      have hbase : p.baseName = b.name := by
        rw [hnames b hb, Binding.baseName, Binding.baseName, hwire]
      rw [hbase]
      rcases hkept b hb with h | h
      · obtain ⟨q, hq, heq⟩ := List.mem_map.mp h
        exact heq ▸ hname (.inl hq)
      · obtain ⟨q, hq, heq⟩ := List.mem_map.mp h
        exact heq ▸ hname (.inr hq)

/-! ### Identifiers of parameters -/

/-- The base name of a parameter with a letter or a digit is the camel-case form of its name in the
document, and that name itself otherwise. -/
theorem Binding.baseName_eq (p : Binding) :
    p.baseName = if HasWord p.wireName then camel p.wireName else p.wireName :=
  nonEmpty_camel

theorem isPart_of_isAlphanum {c : Char} (h : c.isAlphanum = true) : Python.IsPart c := .inl h

section Ascii

variable {p : Binding} (hascii : IsAscii p.wireName)
include hascii

/-- The base name of a parameter has only letters, digits and underscores if its name in the
document has a letter or a digit, or has only underscores. -/
theorem isPart_baseName_iff : (∀ c ∈ p.baseName.toList, Python.IsPart c) ↔
    HasWord p.wireName ∨ ∀ c ∈ p.wireName.toList, c = '_' := by
  rw [p.baseName_eq]
  split_ifs with hword
  · exact iff_of_true
      (fun c hc => isPart_of_isAlphanum (isAlphanum_of_mem_camel hascii c hc)) (.inl hword)
  · rw [or_iff_right hword]
    refine forall₂_congr fun c hc => or_iff_right fun halpha => hword ⟨c, hc, ?_⟩
    rwa [Text.isWordChar_of_lt (hascii c hc)]

/-- The base name of a parameter is ASCII if its name in the document is. -/
theorem isAscii_baseName : IsAscii p.baseName := by
  rw [p.baseName_eq]
  split_ifs
  · exact fun c hc => Text.lt_of_isAlphanum (isAlphanum_of_mem_camel hascii c hc)
  · exact hascii

/-- The base name of a parameter is no keyword with an underscore behind it. -/
theorem baseName_ne_keyword {k : String} (hk : k ∈ Python.keywords) : p.baseName ≠ k ++ "_" := by
  intro heq
  have hunderscore : '_' ∈ p.baseName.toList := by rw [heq]; simp [String.toList_append]
  obtain ⟨c, cs, hname, hc, -⟩ := Python.exists_cons_of_mem_keywords hk
  have hletter : c ∈ p.baseName.toList := by rw [heq, String.toList_append, hname]; simp
  have halpha : c.isAlphanum = true := by simp [Char.isAlphanum, hc]
  rw [p.baseName_eq] at hunderscore hletter
  split_ifs at hunderscore hletter with hword
  · exact absurd (isAlphanum_of_mem_camel hascii _ hunderscore) (by decide)
  · refine hword ⟨c, hletter, ?_⟩
    rwa [Text.isWordChar_of_lt (Text.lt_of_isAlphanum halpha)]

end Ascii

namespace Method.Numbers

variable {m : Method} (h : m.Numbers)
include h

/-- The identifier of a parameter is one, and no keyword, unless its name in the document has
neither letters nor digits and is not made of underscores. -/
theorem isIdentifier_iff (hascii : ∀ p ∈ m.parameters, IsAscii p.wireName) :
    (∀ i ∈ m.parameters.map fun p => Python.identifier p.name, Python.IsIdentifier i ∧
      i ∉ Python.keywords) ↔
      ∀ p ∈ m.parameters, HasWord p.wireName ∨ ∀ c ∈ p.wireName.toList, c = '_' := by
  rw [List.forall_mem_map]
  refine forall₂_congr fun p hp => ?_
  obtain ⟨k, hk⟩ := h.numbered p hp
  have hname : IsAscii p.name := by
    rw [IsAscii, hk, forall_mem_numbered_iff fun d hd =>
      Text.lt_of_isAlphanum (Text.isAlphanum_of_isDigit hd)]
    exact isAscii_baseName (hascii p hp)
  rw [and_iff_left (Python.identifier_not_mem_keywords p.name),
    Python.isIdentifier_identifier_iff hname, hk, forall_mem_numbered_iff fun d hd =>
    isPart_of_isAlphanum (Text.isAlphanum_of_isDigit hd)]
  exact isPart_baseName_iff (hascii p hp)

/-- The identifier `self` is the one of a parameter exactly if `self` is the camel-case form of the
name of one in the document. -/
theorem self_not_mem_iff : ("self" ∉ m.parameters.map fun p => Python.identifier p.name) ↔
    ∀ p ∈ m.parameters, camel p.wireName ≠ "self" := by
  have hself : HasWord "self" := by decide
  have hidentifier : Python.identifier "self" = "self" := by decide
  constructor
  · intro hmem p hp hcamel
    have hword : HasWord p.wireName := by
      by_contra hword
      rw [camel_eq_empty_iff.mpr hword] at hcamel
      exact absurd hcamel (by decide)
    have hbase := h.base p hp
    rw [p.baseName_eq, if_pos hword, hcamel] at hbase
    obtain ⟨q, hq, hname⟩ := List.mem_map.mp hbase
    exact hmem (List.mem_map.mpr ⟨q, hq, by rw [hname, hidentifier]⟩)
  · intro hcamel hmem
    obtain ⟨p, hp, heq⟩ := List.mem_map.mp hmem
    have hname : p.name = "self" := Python.eq_of_identifier_eq heq (by decide)
    obtain ⟨k, hk⟩ := h.numbered p hp
    have hbase := eq_of_numbered (hk.symm.trans hname) (c := 'f') rfl rfl
    rw [p.baseName_eq] at hbase
    split_ifs at hbase with hword
    · exact hcamel p hp hbase
    · exact hword (hbase ▸ hself)

/-- The identifiers of parameters are different unless an underscore in front of the name of one
gives the name of another one. -/
theorem nodup_identifiers_iff (hascii : ∀ p ∈ m.parameters, IsAscii p.wireName) :
    (m.parameters.map fun p => Python.identifier p.name).Nodup ↔
      ∀ p ∈ m.parameters, ∀ q ∈ m.parameters, p.name = "" ∨ StartsWithDigit p.name →
        q.name ≠ "_" ++ p.name := by
  have hkeyword {p : Binding} (hp : p ∈ m.parameters) {k : String} (hk : k ∈ Python.keywords) :
      p.name ≠ k ++ "_" := by
    intro heq
    obtain ⟨j, hj⟩ := h.numbered p hp
    have hlast : (k ++ "_").toList.getLast? = some '_' := by rw [String.toList_append]; simp
    exact baseName_ne_keyword (hascii p hp) hk
      (eq_of_numbered (hj.symm.trans heq) hlast (by decide))
  have hshadows {p q : Binding} (hq : q ∈ m.parameters) :
      Python.Shadows p.name q.name ↔ (p.name = "" ∨ StartsWithDigit p.name) ∧
      q.name = "_" ++ p.name :=
    or_iff_left fun hk => hkeyword hq hk.1 hk.2
  have hmap : (m.parameters.map fun p => Python.identifier p.name) =
      (m.parameters.map Binding.name).map Python.identifier := by
    rw [List.map_map]
    rfl
  rw [hmap, List.nodup_map_iff_inj_on h.nodup]
  simp only [List.forall_mem_map, Python.identifier_eq_iff]
  constructor
  · intro hinj p hp q hq hfirst heq
    have hsame := hinj p hp q hq (.inr (.inl ((hshadows hq).mpr ⟨hfirst, heq⟩)))
    -- No name is longer than itself by an underscore.
    have hlength := congrArg (fun s => s.toList.length) (hsame.trans heq)
    simp only [String.toList_append, List.length_append] at hlength
    exact absurd hlength (by simp)
  · intro hapart p hp q hq heq
    rcases heq with heq | heq | heq
    · exact heq
    · obtain ⟨hfirst, heq⟩ := (hshadows hq).mp heq
      exact absurd heq (hapart p hp q hq hfirst)
    · obtain ⟨hfirst, heq⟩ := (hshadows hp).mp heq
      exact absurd heq (hapart q hq p hp hfirst)

end Method.Numbers

namespace Contract

/-- The Python text of a contract has a definition for each method, in which the parameters stand
behind `self`, each under its identifier. If their names in the document are ASCII, then

* all of them are identifiers and no keywords exactly if each name has a letter or a digit, or is
  made of underscores;
* none of them is `self` exactly if no name has `self` as its camel-case form;
* they are different exactly if no parameter is named like another one, which has no name or a digit
  in front, with an underscore in front. -/
theorem parameterIdentifiers_of_build {doc : Document} {options renderOptions : Options}
    {c : Contract} {text : String} (h : build doc options = .ok c)
    (htarget : renderOptions.target = .python) (hrender : c.render renderOptions = .ok text) :
    ∀ m ∈ c.methods,
      Python.Defines text (Python.identifier m.name) m.parameters ∧
      ((∀ p ∈ m.parameters, IsAscii p.wireName) →
        ((∀ i ∈ m.parameters.map fun p => Python.identifier p.name,
            Python.IsIdentifier i ∧ i ∉ Python.keywords) ↔
          ∀ p ∈ m.parameters, HasWord p.wireName ∨ ∀ c ∈ p.wireName.toList, c = '_') ∧
        (("self" ∉ m.parameters.map fun p => Python.identifier p.name) ↔
          ∀ p ∈ m.parameters, camel p.wireName ≠ "self") ∧
        ((m.parameters.map fun p => Python.identifier p.name).Nodup ↔
          ∀ p ∈ m.parameters, ∀ q ∈ m.parameters, p.name = "" ∨ StartsWithDigit p.name →
            q.name ≠ "_" ++ p.name)) := by
  intro m hm
  obtain ⟨paths, -, hmakes⟩ := methods_of_build h
  obtain ⟨e, -, s, t, hmade⟩ := exists_makes hmakes m hm
  have hnumbers : m.Numbers := numbers_of_buildMethod hmade
  have htext : Python.render c = .ok text := by
    rw [render, htarget] at hrender
    exact hrender
  exact ⟨Python.defines_of_render htext m hm, fun hascii =>
    ⟨hnumbers.isIdentifier_iff hascii, hnumbers.self_not_mem_iff,
      hnumbers.nodup_identifiers_iff hascii⟩⟩

/-- A document with an operation that has parameters with the given names in the query. -/
def withParameters (names : List String) : Document :=
  .ofValue (.map [(.text "paths", .map [(.text "/rows", .map [(.text "get", .map [
    (.text "operationId", .text "listRows"),
    (.text "parameters", .list (names.map fun name =>
      .map [(.text "name", .text name), (.text "in", .text "query")]))])])])])

/-- A keyword, a digit in front and a separator do no harm. A parameter named `self` does. -/
theorem parameterIdentifiers_of_build_rows :
    (∃ c text m, build (withParameters ["page-size", "class", "2x"]) .standard = .ok c ∧
      c.render .standard = .ok text ∧ m ∈ c.methods ∧ Python.Defines text "listRows" m.parameters ∧
      m.parameters.map (fun p => Python.identifier p.name) = ["pageSize", "class_", "_2x"] ∧
      ∀ i ∈ ["pageSize", "class_", "_2x"], Python.IsIdentifier i ∧ i ∉ Python.keywords) ∧
    ∃ c text m, build (withParameters ["self"]) .standard = .ok c ∧ c.render .standard = .ok text ∧
      m ∈ c.methods ∧ Python.Defines text "listRows" m.parameters ∧
      m.parameters.map (fun p => Python.identifier p.name) = ["self"] := by
  constructor
  · obtain ⟨c, text, m, hbuild, hrender, hm, hname, hidentifiers, hascii⟩ : ∃ c text, ∃ m : Method,
        build (withParameters ["page-size", "class", "2x"]) .standard = .ok c ∧
        c.render .standard = .ok text ∧
        m ∈ c.methods ∧ Python.identifier m.name = "listRows" ∧
        m.parameters.map (fun p => Python.identifier p.name) = ["pageSize", "class_", "_2x"] ∧
        ∀ p ∈ m.parameters, HasWord p.wireName ∧ IsAscii p.wireName :=
      ⟨_, _, _, rfl, rfl, List.mem_singleton_self _, rfl, rfl, by decide⟩
    obtain ⟨hdefines, hnames⟩ := parameterIdentifiers_of_build hbuild rfl hrender m hm
    have hvalid := (hnames fun p hp => (hascii p hp).2).1.mpr fun p hp => .inl (hascii p hp).1
    rw [hname] at hdefines
    rw [hidentifiers] at hvalid
    exact ⟨c, text, m, hbuild, hrender, hm, hdefines, hidentifiers, hvalid⟩
  · obtain ⟨c, text, m, hbuild, hrender, hm, hname, hidentifiers⟩ : ∃ c text, ∃ m : Method,
        build (withParameters ["self"]) .standard = .ok c ∧ c.render .standard = .ok text ∧
        m ∈ c.methods ∧
        Python.identifier m.name = "listRows" ∧
          m.parameters.map (fun p => Python.identifier p.name) = ["self"] :=
      ⟨_, _, _, rfl, rfl, List.mem_singleton_self _, rfl, rfl⟩
    have hdefines := (parameterIdentifiers_of_build hbuild rfl hrender m hm).1
    rw [hname] at hdefines
    exact ⟨c, text, m, hbuild, hrender, hm, hdefines, hidentifiers⟩

/-- A parameter may have the identifier `self`, which stands in front of all parameters. -/
theorem not_parameterIdentifiers_self : ¬ ∀ doc options c text, build doc options = .ok c →
    options.target = .python → c.render options = .ok text →
    (∀ paths e id, documentPaths doc = .ok paths → e ∈ endpoints paths →
      operationName e.operation = .ok id →
      IsAscii id) →
    (∀ m ∈ c.methods, ∀ p ∈ m.parameters, IsAscii p.wireName) →
    ∀ m ∈ c.methods, (∀ i ∈ m.parameters.map fun p => Python.identifier p.name,
        Python.IsIdentifier i ∧ i ∉ Python.keywords ∧ i ≠ "self") ∧
      (m.parameters.map fun p => Python.identifier p.name).Nodup := by
  intro hall
  have hids : ∀ paths e id, documentPaths (withParameters ["self"]) = .ok paths →
      e ∈ endpoints paths →
      operationName e.operation = .ok id → IsAscii id := by
    intro paths e id hpaths he hid
    have hpaths' : documentPaths (withParameters ["self"]) = .ok _ := rfl
    cases hpaths'.symm.trans hpaths
    obtain rfl := List.mem_singleton.mp he
    have hlist : "listRows" = id := Except.ok.inj hid
    exact hlist ▸ by decide
  have hself := (hall (withParameters ["self"]) .standard _ _ rfl rfl rfl hids
    (List.forall_mem_singleton.mpr (by decide)) _ (List.mem_singleton_self _)).1 "self"
    List.mem_cons_self
  exact hself.2.2 rfl

end Contract

end ServiceContract
