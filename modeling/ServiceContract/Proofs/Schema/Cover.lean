import ServiceContract.Proofs.Schema.Label
import ServiceContract.Proofs.Schema.Part
import ServiceContract.Proofs.Session.Growth
import ServiceContract.Proofs.Session.Start

/-!
# Schemas that are covered

A schema is *covered* by a set of references and inline schemas if all that its type is made from is
in the set. A set is *closed* if it covers what its references lead to and the properties of what
its members declare. Resolving a schema that a closed set covers meets nothing outside of the set,
and nothing can go wrong on the way but that it does not come to an end: an alias in progress is met
again.

## Main definitions

* `Resolver.Covered`, `Resolver.Complete`: schemas, and references and inline schemas, whose types
  are made from a set.
* `Fault.IsCircular`: the fault of a resolution that does not come to an end.
* `Build.Within`: a step that meets nothing outside of a set.

## Main results

* `Resolver.resolveWithin_within`: resolving a schema that a closed set covers.
-/

namespace ServiceContract

open Build

theorem Node.length_le_of_occursIn {part s : List Char} (h : occursIn part s = true) :
    part.length ≤ s.length := by
  induction s with
  | nil => simp [List.isEmpty_iff.mp h]
  | cons c s ih =>
    rcases Bool.or_eq_true_iff.mp h with hprefix | hoccurs
    · exact (List.isPrefixOf_iff_prefix.mp hprefix).length_le
    · exact Nat.le_succ_of_le (ih hoccurs)

theorem Text.length_ofCodePoint_le (n : Nat) : (Text.ofCodePoint n).length ≤ 2 := by
  unfold Text.ofCodePoint
  split_ifs <;> simp

/-- A code point has at most two characters, and so no part of three. -/
theorem Node.has_ofCodePoint {key : String} (h : 3 ≤ key.toList.length) (n : Nat) :
    (Node.leaf .nowhere (.text (String.ofList (Text.ofCodePoint n)))).has key = .ok false := by
  have hoccurs : Node.occursIn key.toList (Text.ofCodePoint n) = false := by
    by_contra hoccurs
    have hkey := Node.length_le_of_occursIn (by simpa using hoccurs)
    have hcode := Text.length_ofCodePoint_le n
    omega
  rw [Node.has, String.toList_ofList, hoccurs]

/-- The reference or inline schema that a form speaks of. -/
def SchemaForm.origins (schema : Node) : SchemaForm → List Origin
  | .reference ref => [.reference ref]
  | .inline => [.inline schema.address]
  | _ => []

/-- The properties whose types the fields of a declaration have. -/
def Blueprint.properties : Blueprint → List (Scalar × Node)
  | .enumeration .. => []
  | .record _ properties _ => properties

namespace Resolver

/-! ### Covered schemas -/

/-- Blank nodes are no schemas that declare a type. -/
theorem form_ne_inline {r : Resolver} {n : Node} (h : n.IsBlank) (label : String) :
    r.form n label ≠ .ok .inline := by
  rcases h with rfl | rfl | ⟨code, rfl⟩
  · rintro ⟨⟩
  · rintro ⟨⟩
  · have hhas {key : String} (h : 3 ≤ key.toList.length) := Node.has_ofCodePoint h code
    have hlayer :
        (Node.leaf .nowhere (.text (String.ofList (Text.ofCodePoint code)))).stripLayer label =
        .ok none := by
      rw [Node.stripLayer, hhas (by decide), hhas (by decide), hhas (by decide), hhas (by decide)]
      rfl
    rw [form, hlayer, hhas (by decide), hhas (by decide), hhas (by decide), hhas (by decide)]
    rintro ⟨⟩

section Covered

variable (r : Resolver) (D : Origin → Prop)

/-- All that the type of a schema is made from is in the set `D`. -/
inductive Covered : Node → Prop
  | intro {schema : Node} {label : String} {f : SchemaForm} (h : r.form schema label = .ok f)
    (ho : ∀ o ∈ f.origins schema, D o) (hs : ∀ n ∈ f.schemas, Covered n) : Covered schema

/-- A property that can be made a field, whose schema is covered. -/
structure CoveredProperty (e : Scalar × Node) : Prop where
  key : ∃ text, (Node.leaf .nowhere e.1).asText = .ok text
  description : ∃ value text, e.2.orEmpty.get "description" = .ok value ∧
    value.trimmedText = .ok text
  covered : r.Covered D e.2.orEmpty

/-- A schema that can be declared, and whose properties are covered. -/
def Declarable (schema : Node) : Prop :=
  ∃ name blueprint, r.blueprint schema name = .ok blueprint ∧
    ∀ e ∈ blueprint.properties, r.CoveredProperty D e

/-- A reference whose target is covered or can be declared, or an inline schema that can be
declared. -/
def Complete : Origin → Prop
  | .reference ref => ∃ schema, (r.target ref = .ok (schema, true) ∧ r.Declarable D schema) ∨
      (r.target ref = .ok (schema, false) ∧ r.Covered D schema)
  | .inline a => ∃ schema, r.doc.Part schema ∧ schema.address = a ∧ r.Declarable D schema

end Covered

variable {r : Resolver} {D D' : Origin → Prop} {schema n : Node} {s t u : Session}

theorem Covered.mono (h : r.Covered D schema) (hD : ∀ o, D o → D' o) : r.Covered D' schema := by
  induction h with
  | intro h ho _ ih => exact .intro h (fun o hmem => hD o (ho o hmem)) ih

section Form

variable {label : String} {f : SchemaForm} (h : r.form schema label = .ok f)
include h

/-- A form that speaks of nothing else covers its schema. -/
theorem Covered.of_nothing (ho : f.origins schema = []) (hs : f.schemas = []) :
    r.Covered D schema := by
  refine .intro h (fun o hmem => ?_) fun n hmem => ?_
  · rw [ho] at hmem
    cases hmem
  · rw [hs] at hmem
    cases hmem

/-- A form that speaks of one reference or inline schema of the set covers its schema. -/
theorem Covered.of_origin {o : Origin} (ho : f.origins schema = [o])
    (hs : f.schemas = []) (hd : D o) :
    r.Covered D schema := by
  refine .intro h (fun o' hmem => ?_) fun n hmem => ?_
  · rw [ho, List.mem_singleton] at hmem
    exact hmem ▸ hd
  · rw [hs] at hmem
    cases hmem

/-- A form that speaks of one covered schema covers its own. -/
theorem Covered.of_schema (ho : f.origins schema = []) (hs : f.schemas = [n]) (hn : r.Covered D n) :
    r.Covered D schema := by
  refine .intro h (fun o hmem => ?_) fun n' hmem => ?_
  · rw [ho] at hmem
    cases hmem
  · rw [hs, List.mem_singleton] at hmem
    exact hmem ▸ hn

end Form

theorem CoveredProperty.mono {e : Scalar × Node} (h : r.CoveredProperty D e)
    (hD : ∀ o, D o → D' o) : r.CoveredProperty D' e :=
  { h with covered := h.covered.mono hD }

theorem Declarable.mono (h : r.Declarable D schema) (hD : ∀ o, D o → D' o) :
    r.Declarable D' schema := by
  obtain ⟨name, blueprint, hb, h⟩ := h
  exact ⟨name, blueprint, hb, fun e he => (h e he).mono hD⟩

theorem Complete.mono {o : Origin} (h : r.Complete D o) (hD : ∀ o, D o → D' o) :
    r.Complete D' o := by
  cases o with
  | reference ref =>
    obtain ⟨schema, h⟩ := h
    exact ⟨schema, h.imp (.imp_right (·.mono hD)) (.imp_right (·.mono hD))⟩
  | inline a =>
    obtain ⟨schema, hpart, ha, h⟩ := h
    exact ⟨schema, hpart, ha, h.mono hD⟩

/-- An inline schema that is complete can be declared: no other part of the document stands at its
address. -/
theorem Complete.declarable {label : String} (h : r.Complete D (.inline schema.address))
    (hdoc : r.doc.Addressed) (hp : r.doc.Part schema) (hform : r.form schema label = .ok .inline) :
    r.Declarable D schema := by
  obtain ⟨other, hother, haddress, hdeclarable⟩ := h
  have hblank : ¬ schema.IsBlank := fun hblank => form_ne_inline hblank _ hform
  have hsame := hdoc.unique hother hp haddress fun hn => hblank (hdoc.nowhere hp (haddress ▸ hn))
  exact hsame ▸ hdeclarable

end Resolver

/-! ### Known references and inline schemas -/

namespace Session

variable {s t : Session} {o : Origin}

/-- What a session knows depends only on its references and inline schemas. -/
theorem knows_congr (href : t.references = s.references) (hin : t.inlines = s.inlines) :
    t.Knows o ↔ s.Knows o := by
  cases o with
  | reference ref => rw [Knows, Knows, href]
  | inline a => rw [Knows, Knows, hin]

/-- A reference that gets a type is one more that the session knows. -/
theorem knows_reference {ref : String} {type : TypeExpr}
    (href : t.references = (ref, type) :: s.references) (hin : t.inlines = s.inlines) :
    t.Knows o ↔ o = .reference ref ∨ s.Knows o := by
  cases o with
  | inline a => simp [Knows, hin]
  | reference ref' =>
    rw [Knows, Knows, href]
    by_cases h : ref' = ref
    · subst h
      simp
    · simp [Resolver.lookup_cons_of_ne h, h]

/-- An inline schema that gets a name is one more that the session knows. -/
theorem knows_inline {a : Address} {name : String} (href : t.references = s.references)
    (hin : t.inlines = (a, name) :: s.inlines) : t.Knows o ↔ o = .inline a ∨ s.Knows o := by
  cases o with
  | reference ref => simp [Knows, href]
  | inline a' =>
    rw [Knows, Knows, hin]
    by_cases h : a' = a
    · subst h
      simp
    · simp [Resolver.lookup_cons_of_ne h, h]

/-- At the start a session knows nothing. -/
theorem not_knows_start {doc : Document} {s : Session} (h : start doc = .ok s) (o : Origin) :
    ¬ s.Knows o := by
  rw [start_eq h]
  cases o with
  | reference ref => rintro ⟨type, ⟨⟩⟩
  | inline a => rintro ⟨name, ⟨⟩⟩

end Session

/-! ### Steps that stay within a set -/

/-- The fault of a resolution that does not come to an end, as far as that is noticed. -/
def Fault.IsCircular : Fault → Prop
  | .reported report => ∃ schema, report.cause = .unsupportedShape schema "alias refers to itself"
  | .endless => True
  | _ => False

namespace Build

variable {α β : Type} {D : Origin → Prop}

/-- The step meets nothing outside of the set `D`, and fails only if it does not come to an end. -/
def Within (D : Origin → Prop) (m : Build α) : Prop :=
  ∀ s, (∀ o, (m s).2.Knows o → s.Knows o ∨ D o) ∧ ∀ fault, (m s).1 = .error fault → fault.IsCircular

namespace Within

theorem of_knows {m : Build α} (hk : ∀ s o, (m s).2.Knows o → s.Knows o ∨ D o)
    (hok : ∀ s, ∃ a, (m s).1 = .ok a) : Within D m := by
  refine fun s => ⟨hk s, fun fault h => ?_⟩
  obtain ⟨a, ha⟩ := hok s
  rw [ha] at h
  cases h

theorem pure (a : α) : Within D (Pure.pure a) :=
  of_knows (fun _ _ => .inl) fun _ => ⟨a, rfl⟩

theorem bind {m : Build α} {k : α → Build β} (hm : Within D m) (hk : ∀ a, Within D (k a)) :
    Within D (m >>= k) := by
  intro s
  have h := hm s
  rw [bind_apply]
  rcases hrun : m s with ⟨fault | a, t⟩
  · rw [hrun] at h
    exact ⟨h.1, fun fault' hfault => h.2 fault' (congrArg Except.error (Except.error.inj hfault))⟩
  · rw [hrun] at h
    exact ⟨fun o ho => ((hk a t).1 o ho).elim (h.1 o) .inr, (hk a t).2⟩

theorem lift_bind {x : Except Fault α} {k : α → Build β} {a : α} (hx : x = .ok a)
    (hk : Within D (k a)) : Within D ((liftM x : Build α) >>= k) := by
  subst hx
  exact hk

theorem whileResolving {m : Build α} (hm : Within D m) (ref : String) :
    Within D (Build.whileResolving ref m) := by
  intro s
  rw [whileResolving_apply]
  obtain ⟨hknows, hfault⟩ := hm { s with resolving := ref :: s.resolving }
  refine ⟨fun o ho => ?_, hfault⟩
  exact (hknows o ((Session.knows_congr rfl rfl).mp ho)).imp_left (Session.knows_congr rfl rfl).mp

theorem declare (d : Declaration) : Within D (Build.declare d) :=
  of_knows (fun _ _ ho => .inl ((Session.knows_congr rfl rfl).mp ho)) fun _ => ⟨(), rfl⟩

end Within

end Build

/-! ### Resolving covered schemas -/

namespace Resolver

variable {r : Resolver} {D : Origin → Prop} {schema n : Node} {s t u : Session}

section Within

variable {resolve : Node → String → Build TypeExpr}
  (hf : ∀ n hint, r.doc.Part n → r.Covered D n → Within D (resolve n hint))
include hf

theorem resolveFields_within {owner : String} {required : List Scalar}
    {properties : List (Scalar × Node)} (hp : ∀ e ∈ properties, r.doc.Part e.2)
    (hc : ∀ e ∈ properties, r.CoveredProperty D e) :
    Within D (resolveFields resolve owner required properties) := by
  induction properties with
  | nil => exact .pure _
  | cons e properties ih =>
    obtain ⟨text, hkey⟩ := (hc e List.mem_cons_self).key
    obtain ⟨value, description, hvalue, hdescription⟩ := (hc e List.mem_cons_self).description
    have hpart := (Document.part_hereditary r.doc).orEmpty (hp e List.mem_cons_self)
    refine .lift_bind hkey (.bind (hf _ _ hpart (hc e List.mem_cons_self).covered) fun type => ?_)
    refine .lift_bind hvalue (.lift_bind hdescription (.bind ?_ fun fields => .pure _))
    exact ih (fun e he => hp e (List.mem_cons_of_mem _ he)) fun e he =>
      hc e (List.mem_cons_of_mem _ he)

theorem declareType_within (hp : r.doc.Part schema) (hd : r.Declarable D schema) (name : String) :
    Within D (r.declareType resolve schema name) := by
  obtain ⟨label, blueprint, hb, hc⟩ := hd
  rw [declareType_eq]
  refine .lift_bind (blueprint_agrees blueprint hb) ?_
  cases blueprint with
  | enumeration => exact .declare _
  | record required properties description =>
    refine .bind (resolveFields_within hf (fun e he => ?_) hc) fun fields => .declare _
    exact (Document.part_hereditary r.doc).blueprint rfl hp hb e he

theorem resolveReference_within {ref : String} (hd : D (.reference ref))
    (hc : r.Complete D (.reference ref)) : Within D (r.resolveReference resolve ref) := by
  have hknows {s t : Session} {type : TypeExpr} (href : t.references = (ref, type) :: s.references)
      (hin : t.inlines = s.inlines) (o : Origin) (ho : t.Knows o) : s.Knows o ∨ D o :=
    ((Session.knows_reference href hin).mp ho).elim (fun h => .inr (h ▸ hd)) .inl
  intro s
  cases hs : s.references.lookup ref with
  | some type =>
    rw [resolveReference_cached hs]
    exact Within.pure type s
  | none =>
    obtain ⟨schema, ⟨ht, hdeclarable⟩ | ⟨ht, hcovered⟩⟩ := hc
    · rw [resolveReference_named hs ht]
      have hp := (Document.part_hereditary r.doc).target rfl ht
      have hreserve : Within D (reserveReference ref) := fun s => by
        obtain ⟨name, taken, -, h⟩ := reserveReference_apply ref s
        obtain ⟨href, hin, -⟩ := reserveReference_eq_ok h
        rw [h]
        exact ⟨hknows href hin, fun fault h => by cases h⟩
      exact (hreserve.bind fun name =>
        (declareType_within hf hp hdeclarable name).bind fun _ => .pure _) s
    · by_cases hr : ref ∈ s.resolving
      · rw [resolveReference_circular hs ht hr]
        refine ⟨fun o => .inl, fun fault h => ?_⟩
        cases h
        exact ⟨_, rfl⟩
      · rw [resolveReference_alias hs ht hr]
        have hp := (Document.part_hereditary r.doc).target rfl ht
        have hremember (type : TypeExpr) : Within D (remember ref type) :=
          .of_knows (fun s => hknows (s := s) rfl rfl) fun s => ⟨(), rfl⟩
        exact (((hf _ _ hp hcovered).whileResolving ref).bind fun type =>
          (hremember type).bind fun _ => .pure _) s

theorem resolveInline_within (hd : D (.inline schema.address)) (hp : r.doc.Part schema)
    (hdeclarable : r.Declarable D schema) (hint : String) :
    Within D (r.resolveInline resolve schema hint) := by
  intro s
  cases hs : s.inlines.lookup schema.address with
  | some name =>
    rw [resolveInline_cached hs]
    exact Within.pure _ s
  | none =>
    rw [resolveInline_new hs]
    have hreserve (hint : String) : Within D (reserveInline schema hint) := fun s => by
      obtain ⟨href, hin, -⟩ := reserveInline_eq_ok (reserveInline_apply schema hint s)
      refine ⟨fun o ho => ?_, fun fault h => by cases h⟩
      exact ((Session.knows_inline href hin).mp ho).elim (fun h => .inr (h ▸ hd)) .inl
    exact ((hreserve _).bind fun name =>
      (declareType_within hf hp hdeclarable name).bind fun _ => .pure _) s

/-- One step of resolving a schema that a closed set covers. -/
theorem resolveStep_within (hdoc : r.doc.Addressed) (hclosed : ∀ o, D o → r.Complete D o)
    (hp : r.doc.Part schema) (hc : r.Covered D schema) (hint : String) :
    Within D (r.resolveStep resolve schema hint) := by
  obtain ⟨h, ho, hs⟩ := hc
  rw [resolveStep_eq]
  refine .lift_bind (form_agrees _ h) ?_
  have hparts := (Document.part_hereditary r.doc).form rfl hp h
  rename_i label f
  cases f with
  | absent => exact .pure _
  | reference ref =>
    have hd := ho _ (List.mem_singleton.mpr rfl)
    exact resolveReference_within hf hd (hclosed _ hd)
  | wrapper inner =>
    have hmem : inner ∈ [inner] := List.mem_singleton.mpr rfl
    exact hf _ _ (hparts _ hmem) (hs _ hmem)
  | inline =>
    have hd := ho _ (List.mem_singleton.mpr rfl)
    exact resolveInline_within hf hd hp ((hclosed _ hd).declarable hdoc hp h) hint
  | list items =>
    have hmem : items ∈ [items] := List.mem_singleton.mpr rfl
    exact .bind (hf _ _ (hparts _ hmem) (hs _ hmem)) fun type => .pure _
  | map values =>
    have hmem : values ∈ [values] := List.mem_singleton.mpr rfl
    exact .bind (hf _ _ (hparts _ hmem) (hs _ hmem)) fun type => .pure _
  | primitive name => exact .pure _

end Within

/-- Resolving a schema that a closed set covers meets nothing outside of the set. -/
theorem resolveWithin_within (hdoc : r.doc.Addressed) (hclosed : ∀ o, D o → r.Complete D o)
    (fuel : Nat) (hp : r.doc.Part schema) (hc : r.Covered D schema) (hint : String) :
    Within D (r.resolveWithin fuel schema hint) := by
  induction fuel generalizing schema hint with
  | zero =>
    refine fun s => ⟨fun o => .inl, fun fault h => ?_⟩
    cases h
    trivial
  | succ fuel ih =>
    exact resolveStep_within (fun n hint hp hc => ih hp hc hint) hdoc hclosed hp hc hint

end Resolver

end ServiceContract
