import Mathlib.Logic.Relation
import ServiceContract.Proofs.Schema.Alias
import ServiceContract.Proofs.Schema.Bound
import ServiceContract.Proofs.Schema.InlineName
import ServiceContract.Proofs.Schema.Termination

/-!
# Infinite aliases

An alias has the type of its target. If the target is a reference, or a list or a map of them, and
so on, the aliases on the way may lead back to one of themselves, and the type would be infinite.
Such an alias is never given a type, whatever has been resolved before and whether that succeeded,
and resolving it always fails in the same way: an alias on the circle is met while it is in
progress.

The references on the way are the *spine* of the alias. Each of them is determined by the one
before, so that a spine is a walk along a function. A walk that comes back goes round for ever, and
the bound on resolution is large enough for it to be noticed: there are no more references on a
spine than nodes in the document, and no more schemas between two of them.

## Main definitions

* `Resolver.Meets`: the reference that a schema leads to, if it leads to one.
* `Resolver.Next`, `Resolver.Recurs`: the next reference on a spine, and spines that come back.
* `Resolver.Untyped`: sessions in which no such reference has a type.

## Main results

* `Resolver.later_untyped`: no later session has a type for an infinite alias.
* `Resolver.resolve_recurring`: an infinite alias is always refused.
-/

namespace ServiceContract

open Build Relation

/-! ### Schemas inside a schema -/

/-- A form speaks of at most one other schema. -/
theorem SchemaForm.eq_of_mem_schemas {form : SchemaForm} {n m : Node} (hn : n ∈ form.schemas)
    (hm : m ∈ form.schemas) : n = m := by
  cases form with
  | wrapper inner => exact (List.mem_singleton.mp hn).trans (List.mem_singleton.mp hm).symm
  | list items => exact (List.mem_singleton.mp hn).trans (List.mem_singleton.mp hm).symm
  | map values => exact (List.mem_singleton.mp hn).trans (List.mem_singleton.mp hm).symm
  | absent | reference | inline | primitive => exact absurd hn List.not_mem_nil

namespace Node

variable {n inner : Node} {label : String}

/-- A wrapper has one of its keywords. -/
theorem exists_get_of_stripLayer (h : n.stripLayer label = .ok (some inner)) :
    ∃ keyword value, n.has keyword = .ok true ∧ n.get keyword = .ok value := by
  obtain ⟨isReference, -, h⟩ := except_bind_eq_ok.mp h
  split_ifs at h
  · cases h
  obtain ⟨hasMembers, hmembers, h⟩ := except_bind_eq_ok.mp h
  split_ifs at h with hall
  · obtain ⟨properties, -, h⟩ := except_bind_eq_ok.mp h
    split_ifs at h
    · cases h
    · obtain ⟨members, hshaped, -⟩ := except_bind_eq_ok.mp h
      obtain ⟨value, hvalue, -⟩ := except_bind_eq_ok.mp hshaped
      exact ⟨"allOf", value, hall ▸ hmembers, hvalue⟩
  have halternative {keyword : String} {branch : Node}
      (h : n.onlyAlternative keyword label = .ok branch) : ∃ value, n.get keyword = .ok value := by
    obtain ⟨branches, hbranches, -⟩ := except_bind_eq_ok.mp h
    obtain ⟨value, hvalue, -⟩ := except_bind_eq_ok.mp hbranches
    exact ⟨value, hvalue⟩
  obtain ⟨hasOneOf, honeOf, h⟩ := except_bind_eq_ok.mp h
  split_ifs at h with hone
  · obtain ⟨branch, hbranch, -⟩ := except_bind_eq_ok.mp h
    obtain ⟨value, hvalue⟩ := halternative hbranch
    exact ⟨"oneOf", value, hone ▸ honeOf, hvalue⟩
  obtain ⟨hasAnyOf, hanyOf, h⟩ := except_bind_eq_ok.mp h
  split_ifs at h with hany
  · obtain ⟨branch, hbranch, -⟩ := except_bind_eq_ok.mp h
    obtain ⟨value, hvalue⟩ := halternative hbranch
    exact ⟨"anyOf", value, hany ▸ hanyOf, hvalue⟩
  · cases h

end Node

namespace Resolver

variable {r : Resolver} {schema n : Node} {ref ref' : String} {k k' : Nat} {s t : Session}

/-- A schema that speaks of another one is a map with entries. -/
theorem exists_get_of_form {label : String} {form : SchemaForm} (h : r.form schema label = .ok form)
    (hn : n ∈ form.schemas) :
    ∃ key value, schema.has key = .ok true ∧ schema.get key = .ok value := by
  cases formReason h with
  | wrapper hlayer _ => exact Node.exists_get_of_stripLayer hlayer
  | @list type items htype harray hitems =>
    obtain ⟨stated, hstated, htype⟩ := except_bind_eq_ok.mp htype
    refine ⟨"type", stated, Node.has_of_get hstated ?_, hstated⟩
    rintro rfl
    cases htype
    cases harray
  | map hvalues => exact ⟨_, _, Node.has_of_get hvalues nofun, hvalues⟩
  | absent | reference | inline | primitive => exact absurd hn List.not_mem_nil

/-! ### Spines -/

variable (r) in
/-- The schema leads to a reference, through `k` wrappers, lists and maps. -/
inductive Meets : Nat → Node → String → Prop
  | here {schema : Node} {ref : String} (label : String)
    (h : r.form schema label = .ok (.reference ref)) :
    Meets 0 schema ref
  | inner {k : Nat} {schema n : Node} {ref : String} {form : SchemaForm} (label : String)
    (h : r.form schema label = .ok form) (hn : n ∈ form.schemas) (hm : Meets k n ref) :
    Meets (k + 1) schema ref

variable (r) in
/-- The reference behind an alias on its spine. A reference to a schema that declares a type has
none. -/
def Next (ref next : String) : Prop :=
  ∃ schema k, r.target ref = .ok (schema, false) ∧ r.Meets k schema next

variable (r) in
/-- The spine of the reference comes back to a reference on it. -/
def Recurs (ref : String) : Prop :=
  ∃ again, ReflTransGen r.Next ref again ∧ TransGen r.Next again again

/-- A schema leads to one reference in one way. -/
theorem Meets.unique (h : r.Meets k schema ref) (h' : r.Meets k' schema ref') :
    k = k' ∧ ref = ref' := by
  induction h generalizing k' with
  | here _ hform =>
    cases h' with
    | here _ hform' =>
      cases (form_agrees _ hform).symm.trans hform'
      exact ⟨rfl, rfl⟩
    | inner _ hform' hn' =>
      cases (form_agrees _ hform).symm.trans hform'
      exact absurd hn' List.not_mem_nil
  | inner _ hform hn _ ih =>
    cases h' with
    | here _ hform' =>
      cases (form_agrees _ hform).symm.trans hform'
      exact absurd hn List.not_mem_nil
    | inner _ hform' hn' hm' =>
      cases (form_agrees _ hform).symm.trans hform'
      cases SchemaForm.eq_of_mem_schemas hn hn'
      obtain ⟨rfl, rfl⟩ := ih hm'
      exact ⟨rfl, rfl⟩

/-- Behind a reference whose spine comes back there is another such reference. -/
theorem Recurs.next (h : r.Recurs ref) : ∃ next, r.Next ref next ∧ r.Recurs next := by
  obtain ⟨again, hway, hcircle⟩ := h
  obtain ⟨next, hnext, hrest⟩ := TransGen.head'_iff.mp (TransGen.trans_right hway hcircle)
  exact ⟨next, hnext, again, hrest, hcircle⟩

/-! ### Aliases without a type -/

/-- A form that speaks of a schema gets its type from the type of that schema. -/
theorem resolveForm_of_mem (resolve : Node → String → Build TypeExpr) (schema : Node)
    {form : SchemaForm} (hn : n ∈ form.schemas) (hint : String) :
    ∃ (hint' : String) (f : TypeExpr → TypeExpr), r.resolveForm resolve schema hint form =
      resolve n hint' >>= fun type => pure (f type) := by
  cases form with
  | wrapper inner =>
    obtain rfl := List.mem_singleton.mp hn
    exact ⟨hint, id, (bind_pure _).symm⟩
  | list items =>
    obtain rfl := List.mem_singleton.mp hn
    exact ⟨_, .list, rfl⟩
  | map values =>
    obtain rfl := List.mem_singleton.mp hn
    exact ⟨_, .map, rfl⟩
  | absent | reference | inline | primitive => exact absurd hn List.not_mem_nil

/-- A schema is resolved as its form says. -/
theorem resolveWithin_of_form {label : String} {form : SchemaForm}
    (h : r.form schema label = .ok form) (fuel : Nat) (hint : String) :
    r.resolveWithin (fuel + 1) schema hint =
      r.resolveForm (r.resolveWithin fuel) schema hint form := by
  rw [resolveWithin, resolveStep_eq, form_agrees form h]
  rfl

/-- A schema that has got a type through a reference has got it after the reference. -/
theorem Meets.lookup_of_resolveWithin (hm : r.Meets k schema ref) {fuel : Nat} {hint : String}
    {type : TypeExpr} (h : r.resolveWithin fuel schema hint s = (.ok type, t)) :
    ∃ type, t.references.lookup ref = some type := by
  induction hm generalizing fuel hint type s t with
  | here _ hform =>
    cases fuel with
    | zero => cases h
    | succ fuel =>
      rw [resolveWithin_of_form hform] at h
      exact ⟨type, lookup_of_resolveReference (resolveWithin_grows fuel) h⟩
  | inner _ hform hn _ ih =>
    cases fuel with
    | zero => cases h
    | succ fuel =>
      obtain ⟨hint', f, hres⟩ := resolveForm_of_mem (r := r) (r.resolveWithin fuel) _ hn hint
      rw [resolveWithin_of_form hform, hres] at h
      obtain ⟨inner, t', hinner, h⟩ := bind_eq_ok.mp h
      obtain ⟨-, rfl⟩ := pure_eq_ok.mp h
      exact ih hinner

variable (r) in
/-- No reference whose spine comes back has a type. -/
def Untyped (s : Session) : Prop :=
  ∀ ref, r.Recurs ref → s.references.lookup ref = none

/-- A reference that gets a type leaves infinite aliases without one, unless it is such an alias. -/
theorem Untyped.add {type : TypeExpr} (h : r.Untyped s) (hrec : ¬ r.Recurs ref)
    (href : t.references = (ref, type) :: s.references) : r.Untyped t := by
  intro ref' hrec'
  have hne : ref' ≠ ref := by
    rintro rfl
    exact hrec hrec'
  rw [href, lookup_cons_of_ne hne]
  exact h ref' hrec'

/-- A target that has a type in a session is not on a spine that comes back. -/
theorem Untyped.not_recurs {fuel : Nat} {type : TypeExpr} (h : r.Untyped s)
    (hs : r.Settled fuel schema type s) (ht : r.target ref = .ok (schema, false)) :
    ¬ r.Recurs ref := by
  intro hrec
  obtain ⟨next, ⟨schema', k, ht', hm⟩, hrec'⟩ := hrec.next
  cases ht.symm.trans ht'
  obtain ⟨found, hfound⟩ := hm.lookup_of_resolveWithin (hs (.refl s) (Nat.le_refl fuel) "")
  rw [h next hrec'] at hfound
  cases hfound

theorem not_recurs_of_declares (ht : r.target ref = .ok (schema, true)) : ¬ r.Recurs ref := by
  intro hrec
  obtain ⟨next, ⟨schema', k, ht', -⟩, -⟩ := hrec.next
  cases ht.symm.trans ht'

variable (r) in
/-- The session grows, and infinite aliases get no type. -/
def GrowsUntyped (s t : Session) : Prop :=
  r.Grows s t ∧ (r.Untyped s → r.Untyped t)

instance : IsPreorder Session r.GrowsUntyped where
  refl s := ⟨refl_of r.Grows s, id⟩
  trans _ _ _ h h' := ⟨trans_of r.Grows h.1 h'.1, h'.2 ∘ h.2⟩

section Step

variable {resolve : Node → String → Build TypeExpr} {fuel : Nat}
  (hf : ∀ n hint, Moves r.GrowsUntyped (resolve n hint))
  (hok : ∀ {n hint s t type}, resolve n hint s = (.ok type, t) → r.Settled fuel n type t)
include hf hok

/-- Infinite aliases get no type in one step of resolution if they get none in the resolutions
inside it. -/
theorem resolveStep_untyped (schema : Node) (hint : String) :
    Moves r.GrowsUntyped (r.resolveStep resolve schema hint) := by
  have hgrows (n : Node) (hint : String) :
      Moves r.Grows (resolve n hint) := fun s => (hf n hint s).1
  have hdeclare (schema : Node) (name : String) :
      Moves r.GrowsUntyped (r.declareType resolve schema name) :=
    declareType_moves hf (fun d s => ⟨declare_grows d s, id⟩) schema name
  refine resolveStep_moves hf (resolveReference_moves (fun {ref n s} hs ht hr => ⟨?_, ?_⟩)
    fun {ref n s} hs ht {name t} hname => ?_)
    (resolveInline_moves fun {n hint s} hs {name t} hname => ?_) schema hint
  · refine ⟨whileResolving_grows hgrows ref n _, fun h => ?_⟩
    exact (hf n (Naming.pascal (referenceName ref)) { s with resolving := ref :: s.resolving }).2 h
  · intro type t hres
    refine ⟨remember_grows hgrows hs ht hr hres type, fun h => ?_⟩
    rw [whileResolving_apply] at hres
    obtain ⟨hrun, rfl⟩ := Prod.mk.inj hres
    have hsettled := hok (Prod.ext hrun rfl)
    exact h.add (Untyped.not_recurs h (hsettled.of_extends ⟨id, id⟩) ht) rfl
  · obtain ⟨href, -⟩ := reserveReference_eq_ok hname
    refine trans_of r.GrowsUntyped ⟨reserveReference_grows hs ht hname, fun h => ?_⟩
      (hdeclare n name t)
    exact h.add (not_recurs_of_declares ht) href
  · refine trans_of r.GrowsUntyped ⟨reserveInline_grows hs hname, fun h => ?_⟩ (hdeclare n name t)
    intro ref hrec
    rw [(reserveInline_eq_ok hname).1]
    exact h ref hrec

end Step

theorem Partial.untyped {fuel : Nat} {hint : String} {out : Except Fault TypeExpr × Session}
    (h : r.Partial fuel schema hint s out) : r.GrowsUntyped s out.2 := by
  induction h with
  | off fuel schema hint s fault => exact refl_of r.GrowsUntyped s
  | step fuel schema hint s resolve hp ih =>
    have hok {n hint s t type} (hres : resolve n hint s = (.ok type, t)) :
        r.Settled fuel n type t :=
      (hres ▸ hp n hint s).settled
    exact resolveStep_untyped ih hok schema hint s

/-- Whatever is resolved, bound and built, infinite aliases have no type. -/
theorem later_untyped (hstart : Session.start r.doc = .ok s) (h : r.Later s t) : r.Untyped t := by
  let R (s t : Session) : Prop := r.Untyped s → r.Untyped t
  have : IsPreorder Session R := { refl := fun _ => id, trans := fun _ _ _ h h' => h' ∘ h }
  refine h.moves (R := R) (fun _ hp => hp.untyped.2) (fun _ _ => id) (fun _ _ => id)
    (fun _ _ _ => id) fun ref _ => ?_
  rw [Session.start_eq hstart]
  rfl

/-! ### Aliases that are refused -/

/-- A schema that leads to a reference fails as the reference does, in a few more steps. -/
theorem Meets.resolveWithin_eq_error (hm : r.Meets k schema ref) {fuel : Nat} {fault : Fault}
    (h : r.resolveReference (r.resolveWithin fuel) ref s = (.error fault, s)) (hint : String) :
    r.resolveWithin (fuel + k + 1) schema hint s = (.error fault, s) := by
  induction hm generalizing hint with
  | here _ hform =>
    rw [resolveWithin_of_form hform]
    exact h
  | inner _ hform hn _ ih =>
    obtain ⟨hint', f, hres⟩ := resolveForm_of_mem (r := r) (r.resolveWithin _) _ hn hint
    rw [resolveWithin_of_form hform, hres, bind_apply, ← Nat.add_assoc, ih h hint']

section Bounds

variable {l : List Node} (hl : ∀ {a e es}, r.doc.Part (.map a (e :: es)) → .map a (e :: es) ∈ l)
include hl

/-- The schemas on the way to a reference are different from each other. -/
theorem Meets.le_length (hpart : r.doc.Part schema) (hm : r.Meets k schema ref) :
    k ≤ l.length + 1 := by
  refine le_of_last (l := l) (a := schema)
    (E := fun j n => r.doc.Part n ∧ ∃ k ref, j ≤ k ∧ r.Meets k n ref)
    (fun ⟨hn, k, ref, hle, hm⟩ => ⟨hn, k, ref, Nat.le_of_succ_le hle, hm⟩)
    (fun {j n} => ?_) ⟨hpart, k, ref, Nat.le_refl k, hm⟩ ?_
  · rintro ⟨hn, k, ref, hle, hm⟩ hlast
    cases hm with
    | here => cases hle
    | @inner k _ m _ form label hform hmem hm =>
      have hmpart : r.doc.Part m := r.doc.part_hereditary.form rfl hn hform m hmem
      have hle : j ≤ k := Nat.le_of_succ_le_succ hle
      refine ⟨m, ?_, ⟨hmpart, k, ref, hle, hm⟩, ?_⟩
      · cases hm with
        | here => exact .inl (Nat.le_zero.mp hle)
        | inner _ hform' hmem' =>
          obtain ⟨key, value, hhas, hget⟩ := exists_get_of_form hform' hmem'
          exact .inr (Document.mem_of_get hl hmpart hhas hget)
      · rintro ⟨-, k', ref', hle', hm'⟩
        exact hlast ⟨hn, k' + 1, ref', Nat.succ_le_succ hle', .inner label hform hmem hm'⟩
  · rintro ⟨-, k', ref', hle, hm'⟩
    have heq := (hm.unique hm').1
    omega

/-- The reference that a schema leads to is the text at one of the nodes of the document. -/
theorem Meets.mem_texts (hpart : r.doc.Part schema) (hm : r.Meets k schema ref) :
    ref ∈ l.filterMap fun n => (n.get "$ref" >>= Node.asText).toOption := by
  induction hm with
  | here _ hform =>
    cases formReason hform with
    | reference hhas hget htext =>
      refine List.mem_filterMap.mpr ⟨_, Document.mem_of_get hl hpart hhas hget, ?_⟩
      rw [hget, except_ok_bind, htext]
      rfl
  | inner _ hform hn _ ih => exact ih (r.doc.part_hereditary.form rfl hpart hform _ hn)

end Bounds

/-- An alias whose spine comes back fails once the spine does: each reference on the way is in
progress when the next one is met. `refs` are all references on the spine, and `width` bounds the
ways between two of them. -/
theorem resolveReference_recurring {refs : Finset String} {width b fuel : Nat}
    (hrefs : ∀ {ref next}, r.Next ref next → next ∈ refs)
    (hwidth : ∀ {ref schema k next}, r.target ref = .ok (schema, false) →
      r.Meets k schema next → k < width)
    (hrec : r.Recurs ref) (hs : r.Untyped s) (hmem : ref ∈ refs)
    (hway : ∀ c ∈ s.resolving, TransGen r.Next c ref)
    (hb : (refs.filter (· ∉ s.resolving)).card ≤ b) (hfuel : b * width ≤ fuel) :
    ∃ again, ReflTransGen r.Next ref again ∧ TransGen r.Next again again ∧
      r.resolveReference (r.resolveWithin fuel) ref s = (.error (.metAgain again), s) := by
  induction b generalizing fuel ref s with
  | zero =>
    by_cases hr : ref ∈ s.resolving
    · obtain ⟨next, ⟨schema, k, ht, -⟩, -⟩ := hrec.next
      exact ⟨ref, .refl, hway ref hr, resolveReference_circular (hs ref hrec) ht hr⟩
    · have hempty := Finset.card_eq_zero.mp (Nat.le_zero.mp hb)
      exact absurd (Finset.mem_filter.mpr ⟨hmem, hr⟩) (hempty ▸ Finset.notMem_empty ref)
  | succ b ih =>
    obtain ⟨next, ⟨schema, k, ht, hm⟩, hrec'⟩ := hrec.next
    by_cases hr : ref ∈ s.resolving
    · exact ⟨ref, .refl, hway ref hr, resolveReference_circular (hs ref hrec) ht hr⟩
    have hnext : r.Next ref next := ⟨schema, k, ht, hm⟩
    have hk := hwidth ht hm
    rw [Nat.succ_mul] at hfuel
    obtain ⟨less, rfl⟩ : ∃ less, fuel = less + k + 1 := ⟨fuel - (k + 1), by omega⟩
    -- With the alias in progress there is one reference less that is not.
    have hcard : (refs.filter (· ∉ ref :: s.resolving)).card <
        (refs.filter (· ∉ s.resolving)).card :=
      card_filter_lt (fun _ hnew hc => hnew (List.mem_cons_of_mem _ hc)) hmem hr
        fun hnew => hnew List.mem_cons_self
    have hway' : ∀ c ∈ ref :: s.resolving, TransGen r.Next c next :=
      List.forall_mem_cons.mpr ⟨.single hnext, fun c hc => (hway c hc).tail hnext⟩
    have hb' : (refs.filter (· ∉ ref :: s.resolving)).card ≤ b := by omega
    have hless : b * width ≤ less := by omega
    obtain ⟨again, hreach, hcircle, hrun⟩ :=
      ih (s := { s with resolving := ref :: s.resolving }) hrec' hs (hrefs hnext) hway' hb' hless
    refine ⟨again, .head hnext hreach, hcircle, ?_⟩
    have hinner := hm.resolveWithin_eq_error hrun (Naming.pascal (referenceName ref))
    rw [resolveReference_alias (hs ref hrec) ht hr, bind_apply, whileResolving_apply, hinner]
    simp only [List.erase_cons_head]

/-- An alias whose spine comes back has no type in any later session, and resolving it is refused
there whenever nothing is in progress: an alias on the circle is met while it is in progress, and
the session stays as it is. -/
theorem resolve_recurring (hdoc : r.doc.Counted) {start : Session}
    (hstart : Session.start r.doc = .ok start) (hlater : r.Later start s) (hidle : s.resolving = [])
    (hrec : r.Recurs ref) (hint : String) :
    s.references.lookup ref = none ∧
      ∃ again, ReflTransGen r.Next ref again ∧ TransGen r.Next again again ∧
        r.resolve (.ofReference ref) hint s = (.error (.metAgain again), s) := by
  have huntyped := later_untyped hstart hlater
  refine ⟨huntyped ref hrec, ?_⟩
  obtain ⟨l, hsize, hl⟩ := hdoc
  let texts := l.filterMap fun n => (n.get "$ref" >>= Node.asText).toOption
  have htexts : texts.length ≤ l.length := List.length_filterMap_le _ l
  let refs : Finset String := insert ref texts.toFinset
  have hcard : refs.card ≤ r.doc.size + 1 :=
    (Finset.card_insert_le ref texts.toFinset).trans
      (Nat.succ_le_succ ((texts.toFinset_card_le.trans htexts).trans hsize))
  have hrefs {ref' next : String} (h : r.Next ref' next) : next ∈ refs := by
    obtain ⟨schema, k, ht, hm⟩ := h
    have hpart : r.doc.Part schema := r.doc.part_hereditary.target rfl ht
    exact Finset.mem_insert_of_mem (List.mem_toFinset.mpr (hm.mem_texts hl hpart))
  have hwidth {ref' next : String} {schema : Node} {k : Nat}
      (ht : r.target ref' = .ok (schema, false)) (hm : r.Meets k schema next) :
      k < r.doc.size + 3 := by
    have hle := hm.le_length hl (r.doc.part_hereditary.target rfl ht)
    omega
  obtain ⟨fuel, hfuel⟩ := r.stepBound_eq
  rw [resolve_ofReference hfuel]
  refine resolveReference_recurring hrefs hwidth hrec huntyped (Finset.mem_insert_self ref _) ?_
    ((Finset.card_filter_le _ _).trans hcard) ?_
  · rw [hidle]
    exact fun c hc => absurd hc List.not_mem_nil
  · have hbound : (r.doc.size + 2) * (r.doc.size + 3) ≤ r.stepBound :=
      Nat.mul_le_mul_right _ (by omega)
    rw [Nat.succ_mul] at hbound
    omega

/-- A document with an alias that leads into a circle: lists, whose items may be null, of maps with
values that stand for the lists again. Another alias stands for texts. -/
def infiniteRows : Resolver where
  doc := .ofValue (.map [(.text "components", .map [(.text "schemas", .map [
    (.text "Table", .ofReference "#/components/schemas/Rows"),
    (.text "Rows", .map [
      (.text "type", .scalar (.text "array")),
      (.text "items", .map [(.text "oneOf", .list [
        .ofReference "#/components/schemas/Cells",
        .map [(.text "type", .scalar (.text "null"))]])])]),
    (.text "Cells", .map [
      (.text "type", .scalar (.text "object")),
      (.text "additionalProperties", .ofReference "#/components/schemas/Back")]),
    (.text "Back", .ofReference "#/components/schemas/Rows"),
    (.text "Title", .map [(.text "type", .scalar (.text "string"))])])])])
  primitives := pythonPrimitives

/-- The session after the texts have been resolved, and the maps have been refused. -/
def afterCells (start : Session) : Session :=
  (infiniteRows.resolve (.ofReference "#/components/schemas/Cells") ""
    (infiniteRows.resolve (.ofReference "#/components/schemas/Title") "" start).2).2

/-- The alias is refused in that session too. -/
theorem resolve_recurring_infiniteRows :
    ∃ start s, Session.start infiniteRows.doc = .ok start ∧ s = afterCells start ∧
      infiniteRows.Later start s ∧ s.references.map Prod.fst = ["#/components/schemas/Title"] ∧
      s.resolving = [] ∧ infiniteRows.Recurs "#/components/schemas/Table" ∧
      s.references.lookup "#/components/schemas/Table" = none ∧
      ∃ again, ReflTransGen infiniteRows.Next "#/components/schemas/Table" again ∧
        TransGen infiniteRows.Next again again ∧
        infiniteRows.resolve (.ofReference "#/components/schemas/Table") "" s =
          (.error (.metAgain again), s) := by
  have htable : infiniteRows.Next "#/components/schemas/Table" "#/components/schemas/Rows" :=
    ⟨_, 0, rfl, .here "" rfl⟩
  have hrows : infiniteRows.Next "#/components/schemas/Rows" "#/components/schemas/Cells" :=
    ⟨_, 2, rfl, .inner "" rfl List.mem_cons_self
      (.inner "" rfl List.mem_cons_self (.here "" rfl))⟩
  have hcells : infiniteRows.Next "#/components/schemas/Cells" "#/components/schemas/Back" :=
    ⟨_, 1, rfl, .inner "" rfl List.mem_cons_self (.here "" rfl)⟩
  have hback : infiniteRows.Next "#/components/schemas/Back" "#/components/schemas/Rows" :=
    ⟨_, 0, rfl, .here "" rfl⟩
  have hcircle :
      TransGen infiniteRows.Next "#/components/schemas/Rows" "#/components/schemas/Rows" :=
    ((TransGen.single hrows).tail hcells).tail hback
  have hrec : infiniteRows.Recurs "#/components/schemas/Table" := ⟨_, .single htable, hcircle⟩
  have hrun : (Session.start infiniteRows.doc).map (fun start =>
      ((afterCells start).references.map Prod.fst, (afterCells start).resolving)) =
        .ok (["#/components/schemas/Title"], []) := by
    rfl
  cases hstart : Session.start infiniteRows.doc with
  | error fault =>
    rw [hstart] at hrun
    cases hrun
  | ok start =>
    rw [hstart] at hrun
    obtain ⟨hreferences, hidle⟩ := Prod.mk.inj (Except.ok.inj hrun)
    have hlater : infiniteRows.Later start (afterCells start) :=
      (Later.refl.resolve _ _).resolve _ _
    exact ⟨start, _, rfl, rfl, hlater, hreferences, hidle, hrec,
      resolve_recurring (Document.isTree_ofValue _).counted hstart hlater hidle hrec ""⟩

end Resolver

end ServiceContract
