import ServiceContract.Proofs.Schema.Again
import ServiceContract.Proofs.Schema.Name
import ServiceContract.Proofs.Session.Component

/-!
# The names of inline schemas and of components

The name that an inline schema has got is its own: it keeps the name, and no other inline schema, no
component and no reference ever has it, whatever the hints are under which schemas are resolved. A
reference to a component that declares a type has the name that the component got at the start.

A reference may have a name without being declared under it: an alias for another reference has the
type of that one. So every name that a reference has is traced back to a reference that declares a
type.

## Main definitions

* `Resolver.Traced`: the names of references come from references that declare types.
* `Resolver.Owns`: a name belongs to an inline schema alone.

## Main results

* `Resolver.later_traced`: names are traced in every session.
* `Resolver.names_kept`: the names of inline schemas and of references to components.
-/

namespace ServiceContract

open Build

/-! ### Aliases -/

/-- A schema whose wrappers are taken away is no wrapper. -/
theorem Document.stripLayer_of_unwrap {doc : Document} {n schema : Node} {label : String}
    (h : doc.unwrap n label = .ok schema) : schema.stripLayer label = .ok none := by
  have hwithin {fuel : Nat} {n : Node} (h : n.unwrapWithin label fuel = .ok schema) :
      schema.stripLayer label = .ok none := by
    induction fuel generalizing n with
    | zero => cases h
    | succ fuel ih =>
      obtain ⟨layer, hlayer, h⟩ := except_bind_eq_ok.mp h
      cases layer with
      | none =>
        cases h
        exact hlayer
      | some inner => exact ih h
  exact hwithin h

/-- What a schema without a reference lacks that declares no type. -/
theorem Node.lacks_of_declaresType {schema : Node} (h : schema.declaresType = .ok false)
    (href : schema.has "$ref" = .ok false) : schema.has "allOf" = .ok false ∧
      schema.has "enum" = .ok false ∧ ∀ p, schema.get "properties" = .ok p →
      p.isTruthy = false := by
  rw [declaresType, href] at h
  obtain ⟨isReference, hfalse, h⟩ := except_bind_eq_ok.mp h
  cases hfalse
  obtain ⟨declares, hany, h⟩ := except_bind_eq_ok.mp h
  cases declares with
  | true => cases h
  | false =>
    obtain ⟨properties, hproperties, h⟩ := except_bind_eq_ok.mp h
    obtain ⟨hasMembers, hmembers, hany⟩ := except_bind_eq_ok.mp hany
    cases hasMembers with
    | true => cases hany
    | false =>
      obtain ⟨hasEnum, henum, hany⟩ := except_bind_eq_ok.mp hany
      cases hasEnum with
      | true => cases hany
      | false =>
        refine ⟨hmembers, henum, fun p hp => ?_⟩
        cases hproperties.symm.trans hp
        exact Except.ok.inj h

namespace Resolver

variable {r : Resolver} {s t u : Session} {schema : Node} {ref name : String}

/-- The target of a reference is no wrapper. -/
theorem stripLayer_of_target {declares : Bool} (h : r.target ref = .ok (schema, declares))
    (label : String) :
    schema.stripLayer label = .ok none := by
  obtain ⟨node, -, h⟩ := except_bind_eq_ok.mp h
  obtain ⟨inner, hinner, h⟩ := except_bind_eq_ok.mp h
  obtain ⟨declares, -, h⟩ := except_bind_eq_ok.mp h
  cases h
  exact Node.stripLayer_agrees none (Document.stripLayer_of_unwrap hinner)

/-- An alias is no wrapper and declares no type. -/
theorem form_of_alias (ht : r.target ref = .ok (schema, false)) {label : String} {form : SchemaForm}
    (h : r.form schema label = .ok form) : form ≠ .inline ∧ ∀ inner, form ≠ .wrapper inner := by
  cases formReason h with
  | wrapper hwrapper => cases (stripLayer_of_target ht label).symm.trans hwrapper
  | inline href _ hinline =>
    obtain ⟨hmembers, henum, hproperties⟩ :=
      Node.lacks_of_declaresType (declaresType_of_target ht) href
    rcases hinline with hall | hall | ⟨properties, hp, htruthy⟩
    · cases hmembers.symm.trans hall
    · cases henum.symm.trans hall
    · exact absurd htruthy (Bool.eq_false_iff.mp (hproperties properties hp))
  | absent | reference | list | map | primitive => exact ⟨nofun, nofun⟩

/-- An alias that has the name of a declaration refers to another reference with that name. -/
theorem Settled.lookup_of_alias {fuel : Nat} (h : r.Settled fuel schema (.declared name) s)
    (ht : r.target ref = .ok (schema, false)) :
    ∃ ref', s.references.lookup ref' = some (.declared name) := by
  have hrun := h (.refl s) (Nat.le_succ fuel) ""
  rw [resolveWithin, resolveStep_eq, lift_bind_eq_ok] at hrun
  obtain ⟨form, hform, hrun⟩ := hrun
  obtain ⟨hinline, hwrapper⟩ := form_of_alias ht hform
  cases form with
  | absent => cases hrun
  | reference ref' => exact ⟨ref', lookup_of_resolveReference (resolveWithin_grows fuel) hrun⟩
  | wrapper inner => exact absurd rfl (hwrapper inner)
  | inline => exact absurd rfl hinline
  | list items =>
    obtain ⟨type, t, -, hrun⟩ := bind_eq_ok.mp hrun
    cases hrun
  | map values =>
    obtain ⟨type, t, -, hrun⟩ := bind_eq_ok.mp hrun
    cases hrun
  | primitive name => cases hrun

/-! ### Names of references -/

variable (r) in
/-- A reference to a schema that declares a type has a name, and the names that references have are
those of references to schemas that declare a type. -/
structure Traced (s : Session) : Prop where
  declared : ∀ {ref schema type}, r.target ref = .ok (schema, true) →
    s.references.lookup ref = some type → ∃ name, type = .declared name
  named : ∀ {ref name}, s.references.lookup ref = some (.declared name) →
    ∃ ref', r.Named s (.reference ref') name

theorem Traced.congr (h : r.Traced s) (href : t.references = s.references) : r.Traced t := by
  constructor
  · rw [href]
    exact h.declared
  · intro ref name hname
    rw [href] at hname
    obtain ⟨ref', hnamed⟩ := h.named hname
    refine ⟨ref', hnamed.1, ?_⟩
    rw [href]
    exact hnamed.2

/-- Names are still traced when one more reference has got a type. -/
theorem Traced.add {type : TypeExpr} (h : r.Traced s) (hs : s.references.lookup ref = none)
    (href : t.references = (ref, type) :: s.references)
    (hdeclared : ∀ schema, r.target ref = .ok (schema, true) → ∃ name, type = .declared name)
    (hnamed : ∀ name, type = .declared name → ∃ ref', r.Named t (.reference ref') name) :
    r.Traced t := by
  -- The references that have got a type before keep it.
  have hkept {ref' : String} {type' : TypeExpr} (hne : ref' ≠ ref) :
      t.references.lookup ref' = some type' ↔ s.references.lookup ref' = some type' := by
    rw [href, lookup_cons_of_ne hne]
  have hself : t.references.lookup ref = some type := by rw [href, List.lookup_cons_self]
  constructor
  · intro ref' schema type' ht htype
    by_cases hne : ref' = ref
    · subst hne
      cases hself.symm.trans htype
      exact hdeclared schema ht
    · exact h.declared ht ((hkept hne).mp htype)
  · intro ref' name hname
    by_cases hne : ref' = ref
    · subst hne
      cases hself.symm.trans hname
      exact hnamed name rfl
    · obtain ⟨ref'', htarget, hlookup⟩ := h.named ((hkept hne).mp hname)
      refine ⟨ref'', htarget, (hkept ?_).mpr hlookup⟩
      rintro rfl
      rw [hs] at hlookup
      cases hlookup

variable (r) in
/-- The session grows, and names stay traced. -/
def GrowsTraced (s t : Session) : Prop :=
  r.Grows s t ∧ (r.Traced s → r.Traced t)

instance : IsPreorder Session r.GrowsTraced where
  refl s := ⟨refl_of r.Grows s, id⟩
  trans _ _ _ h h' := ⟨trans_of r.Grows h.1 h'.1, h'.2 ∘ h.2⟩

section Step

variable {resolve : Node → String → Build TypeExpr} {fuel : Nat}
  (hf : ∀ n hint, Moves r.GrowsTraced (resolve n hint))
  (hok : ∀ {n hint s t type}, resolve n hint s = (.ok type, t) → r.Settled fuel n type t)
include hf

theorem declareType_traced (schema : Node) (name : String) :
    Moves r.GrowsTraced (r.declareType resolve schema name) :=
  declareType_moves hf (fun d s => ⟨declare_grows d s, fun h => h.congr rfl⟩) schema name

include hok

/-- Names stay traced along one step of resolution if they do along the resolutions inside it. -/
theorem resolveStep_traced (schema : Node) (hint : String) :
    Moves r.GrowsTraced (r.resolveStep resolve schema hint) := by
  have hgrows (n : Node) (hint : String) :
      Moves r.Grows (resolve n hint) := fun s => (hf n hint s).1
  refine resolveStep_moves hf (resolveReference_moves (fun {ref n s} hs ht hr => ⟨?_, ?_⟩)
    fun {ref n s} hs ht {name t} hname => ?_)
    (resolveInline_moves fun {n hint s} hs {name t} hname => ?_) schema hint
  · refine ⟨whileResolving_grows hgrows ref n _, fun htraced => ?_⟩
    have hinside :=
      (hf n (Naming.pascal (referenceName ref)) { s with resolving := ref :: s.resolving }).2
    exact (hinside (htraced.congr rfl)).congr rfl
  · intro type t hres
    refine ⟨remember_grows hgrows hs ht hr hres type, fun htraced => ?_⟩
    rcases hrun :
      resolve n (Naming.pascal (referenceName ref))
      { s with resolving := ref :: s.resolving } with ⟨result, t'⟩
    have hpending := (hgrows n (Naming.pascal (referenceName ref))
      { s with resolving := ref :: s.resolving }).pending List.mem_cons_self ht hs
    rw [whileResolving_apply, hrun] at hres
    rw [hrun] at hpending
    obtain ⟨rfl, hend⟩ := Prod.mk.inj hres
    have href : t.references = t'.references := by rw [← hend]
    refine htraced.add (href ▸ hpending) rfl (fun other hother => ?_) fun name hname => ?_
    · rw [ht] at hother
      cases hother
    · subst hname
      obtain ⟨ref', hlookup⟩ := (hok hrun).lookup_of_alias ht
      obtain ⟨ref'', hnamed⟩ := htraced.named (href ▸ hlookup)
      have hiff : r.Named { t with references := (ref, .declared name) :: t.references }
        (.reference ref'') name ↔ r.Named t (.reference ref'') name := named_of_alias ht rfl rfl
      exact ⟨ref'', hiff.mpr hnamed⟩
  · have hdeclare := declareType_traced (r := r) hf n name t
    obtain ⟨href, -⟩ := reserveReference_eq_ok hname
    have hnamed : r.Named t (.reference ref) name := by
      refine ⟨⟨n, ht⟩, ?_⟩
      rw [href]
      exact List.lookup_cons_self
    refine trans_of r.GrowsTraced ⟨reserveReference_grows hs ht hname, fun htraced => ?_⟩ hdeclare
    refine htraced.add hs href (fun _ _ => ⟨name, rfl⟩) fun name' heq => ?_
    cases heq
    exact ⟨ref, hnamed⟩
  · have hdeclare := declareType_traced (r := r) hf n name t
    refine trans_of r.GrowsTraced ⟨reserveInline_grows hs hname, fun htraced => ?_⟩ hdeclare
    exact htraced.congr (reserveInline_eq_ok hname).1

end Step

theorem Partial.traced {fuel : Nat} {hint : String} {out : Except Fault TypeExpr × Session}
    (h : r.Partial fuel schema hint s out) : r.GrowsTraced s out.2 := by
  induction h with
  | off fuel schema hint s fault => exact refl_of r.GrowsTraced s
  | step fuel schema hint s resolve hp ih =>
    have hok {n hint s t type} (hres : resolve n hint s = (.ok type, t)) :
        r.Settled fuel n type t :=
      (hres ▸ hp n hint s).settled
    exact resolveStep_traced ih hok schema hint s

theorem Later.traced (h : r.Later s t) (hs : r.Traced s) : r.Traced t := by
  let R (s t : Session) : Prop := r.Traced s → r.Traced t
  have : IsPreorder Session R := { refl := fun _ => id, trans := fun _ _ _ h h' => h' ∘ h }
  exact h.moves (R := R) (fun _ hp => hp.traced.2) (fun _ _ h => h.congr rfl)
    (fun _ _ h => h.congr rfl) (fun _ _ _ h => h.congr rfl) hs

theorem start_traced (h : Session.start r.doc = .ok s) : r.Traced s := by
  have href : s.references = [] := by
    rw [Session.start_eq h]
    rfl
  constructor
  · intro ref schema type _ htype
    rw [href] at htype
    cases htype
  · intro ref name hname
    rw [href] at hname
    cases hname

/-! ### Names that are kept -/

/-- What comes after a later session comes after the first one. -/
theorem Later.trans (h : r.Later s t) (h' : r.Later t u) : r.Later s u := by
  induction h' with
  | refl => exact h
  | resolved _ hle hp ih => exact .resolved ih hle hp
  | bound pathItem operation owner _ ih => exact .bound pathItem operation owner ih
  | built includeResponse path pathItem httpMethod operation _ ih =>
    exact .built includeResponse path pathItem httpMethod operation ih
  | aside resolving events _ ih => exact .aside resolving events ih

theorem Later.components (h : r.Later s t) : t.components = s.components := by
  let R (s t : Session) : Prop := t.components = s.components
  have : IsPreorder Session R := { refl := fun _ => rfl, trans := fun _ _ _ h h' => Eq.trans h' h }
  exact h.moves (R := R) (fun _ hp => hp.grows.components) (fun _ _ => rfl) (fun _ _ => rfl)
    fun _ _ _ => rfl

theorem Later.made (hstart : Session.start r.doc = .ok s) (h : r.Later s t) :
    ∃ made, r.Made t made := by
  obtain ⟨made, hd, hnames, hnodup, -⟩ := h.makes.made
  refine ⟨made, ?_, hnodup, hnames⟩
  rw [hd, Session.start_eq hstart]
  rfl

variable (r) in
/-- The name belongs to the inline schema alone: it has got the name, no other inline schema, no
component and no reference has it, and there is at most one declaration with the name, which is the
one of the schema. -/
structure Owns (start s : Session) (a : Address) (name : String) : Prop where
  named : s.inlines.lookup a = some name
  inline : ∀ {a'}, s.inlines.lookup a' = some name → a' = a
  component : name ∉ start.componentNames
  reference : ∀ ref, s.references.lookup ref ≠ some (.declared name)
  declared : (s.declarations.map Declaration.name).count name ≤ 1
  made : ∃ made, r.Made s made ∧ ∀ p ∈ made, p.2.name = name ↔ p.1 = .inline a

/-- A value occurs at most once if what has it is told apart. -/
theorem count_map_le_one {α β γ : Type} [DecidableEq β] {l : List α} {f : α → β} {g : α → γ} {b : β}
    {c : γ} (hg : (l.map g).Nodup) (h : ∀ x ∈ l, f x = b → g x = c) : (l.map f).count b ≤ 1 := by
  induction l with
  | nil => exact Nat.zero_le 1
  | cons x l ih =>
    obtain ⟨hx, hl⟩ := List.nodup_cons.mp hg
    have hcount := ih hl fun y hy => h y (List.mem_cons_of_mem x hy)
    rw [List.map_cons, List.count_cons]
    by_cases hb : f x = b
    · have hnone : (l.map f).count b = 0 := by
        refine List.count_eq_zero.mpr fun hmem => ?_
        obtain ⟨y, hy, hyb⟩ := List.mem_map.mp hmem
        have hsame : g y = g x :=
          (h y (List.mem_cons_of_mem x hy) hyb).trans (h x List.mem_cons_self hb).symm
        exact hx (hsame ▸ List.mem_map_of_mem hy)
      simp [hnone, hb]
    · simpa [hb] using hcount

theorem owns_of_later (hstart : Session.start r.doc = .ok s) (ht : r.Later s t) {a : Address}
    (ha : t.inlines.lookup a = some name) (hu : r.Later t u) : r.Owns s u a name := by
  have hlater := ht.trans hu
  have hapart : r.Apart u := hlater.makes.apart (start_apart hstart)
  have hnamed : r.Named u (.inline a) name := hu.extends.inlines ha
  have hcomponent : name ∉ u.componentNames := by
    intro hmem
    obtain ⟨ref, href, -⟩ := hapart.component hnamed hmem
    cases href
  have horigin {o : Origin} (ho : r.Named u o name) :
      o = .inline a := hapart.inj ho hnamed hcomponent
  obtain ⟨made, hmade⟩ := hlater.made hstart
  have hiff (p : Origin × Declaration) (hp : p ∈ made) : p.2.name = name ↔ p.1 = .inline a := by
    constructor
    · rintro rfl
      exact horigin (hmade.named p hp)
    · intro ho
      have hp := hmade.named p hp
      rw [ho] at hp
      exact Option.some.inj (hp.symm.trans hnamed)
  refine ⟨hnamed, fun ha' => ?_, ?_, fun ref href => ?_, ?_, made, hmade, hiff⟩
  · cases horigin (o := .inline _) ha'
    rfl
  · rwa [Session.componentNames, ← hlater.components]
  · obtain ⟨ref', href'⟩ := (hlater.traced (start_traced hstart)).named href
    cases horigin href'
  · rw [hmade.declarations, List.map_map]
    exact count_map_le_one hmade.nodup fun p hp hname => (hiff p hp).mp hname

/-! ### References to components -/

/-- A reference to a schema that declares a type has got a type once it has been resolved, even if
that fails. -/
theorem isSome_of_resolveReference {resolve : Node → String → Build TypeExpr}
    (hf : ∀ n hint, Moves r.Grows (resolve n hint)) (ht : r.target ref = .ok (schema, true)) :
    ∃ type, (r.resolveReference resolve ref s).2.references.lookup ref = some type := by
  cases hs : s.references.lookup ref with
  | some type =>
    rw [resolveReference_cached hs]
    exact ⟨type, hs⟩
  | none =>
    rw [resolveReference_named hs ht]
    obtain ⟨name, taken, -, hname⟩ := reserveReference_apply ref s
    have hgrows : Moves r.Grows
        (r.declareType resolve schema name >>= fun _ => (pure (.declared name) : Build TypeExpr)) :=
      .bind (declareType_moves hf declare_grows schema name) fun _ => .pure _
    rw [bind_apply, hname]
    exact ⟨.declared name, (hgrows _).references List.lookup_cons_self⟩

theorem stepBound_eq (r : Resolver) : ∃ fuel, r.stepBound = fuel + 1 :=
  Nat.exists_eq_succ_of_ne_zero (by simp [stepBound])

/-- The schema that refers to another one is resolved as a reference. -/
theorem resolve_ofReference {fuel : Nat} (h : r.stepBound = fuel + 1) (ref hint : String) :
    r.resolve (.ofReference ref) hint = r.resolveReference (r.resolveWithin fuel) ref := by
  rw [resolve, h, resolveWithin, resolveStep_eq]
  rfl

variable (r) in
/-- The reference has the name whenever it has a type, and has got it once it has been resolved,
under whatever hint, even if that fails. -/
structure HasName (s : Session) (ref name : String) : Prop where
  kept : ∀ {type}, s.references.lookup ref = some type → type = .declared name
  got : ∀ hint, (r.resolve (.ofReference ref) hint s).2.references.lookup ref =
    some (.declared name)
  type : ∀ {hint type}, (r.resolve (.ofReference ref) hint s).1 = .ok type → type = .declared name

theorem hasName_of_later (hstart : Session.start r.doc = .ok s)
    (ht : r.target ref = .ok (schema, true)) (hname : componentName? s.components ref = some name)
    (h : r.Later s t) : r.HasName t ref name := by
  have hkept {u : Session} (hu : r.Later s u) {type : TypeExpr}
      (htype : u.references.lookup ref = some type) : type = .declared name := by
    obtain ⟨n, rfl⟩ := (hu.traced (start_traced hstart)).declared ht htype
    have hapart : r.Apart u := hu.makes.apart (start_apart hstart)
    have hnamed : r.Named u (.reference ref) n := ⟨⟨schema, ht⟩, htype⟩
    rw [hapart.reference hnamed (hu.components ▸ hname)]
  obtain ⟨fuel, hfuel⟩ := r.stepBound_eq
  refine ⟨hkept h, fun hint => ?_, fun {hint type} htype => ?_⟩
  · have hlater := h.resolve (.ofReference ref) hint
    have hrun := resolve_ofReference hfuel ref hint
    obtain ⟨type, hlookup⟩ := isSome_of_resolveReference (s := t) (resolveWithin_grows fuel) ht
    rw [hrun] at hlater ⊢
    rw [hlookup, hkept hlater hlookup]
  · have hlater := h.resolve (.ofReference ref) hint
    have hrun := resolve_ofReference hfuel ref hint
    rw [hrun] at hlater htype
    rcases hres : r.resolveReference (r.resolveWithin fuel) ref t with ⟨result, u⟩
    rw [hres] at hlater htype
    subst htype
    exact hkept hlater (lookup_of_resolveReference (resolveWithin_grows fuel) hres)

/-- Whatever the steps and the hints are: the name that an inline schema gets is its own ever after,
and a reference to a component that declares a type has the name that the component got at the
start. -/
theorem names_kept {start : Session} (hstart : Session.start r.doc = .ok start) :
    (∀ {t u a name}, r.Later start t → t.inlines.lookup a = some name → r.Later t u →
      r.Owns start u a name) ∧
    ∀ {segment schema}, '/' ∉ segment → r.target (componentReference segment) = .ok (schema, true) →
      ∃ name, start.components.lookup (String.ofList (unescapeSegment segment)) = some name ∧
        ∀ {t}, r.Later start t → r.HasName t (componentReference segment) name := by
  refine ⟨fun ht ha hu => owns_of_later hstart ht ha hu,
    fun {segment schema} hsegment htarget => ?_⟩
  obtain ⟨n, hn, -⟩ := except_bind_eq_ok.mp htarget
  obtain ⟨name, hname⟩ := Session.component_of_resolve hstart hsegment hn
  refine ⟨name, ?_, fun h => hasName_of_later hstart htarget hname h⟩
  rwa [componentName?_componentReference hsegment] at hname

/-- A document with components `Pet` and `Pet2`, and a record besides. -/
def pets : Resolver where
  doc := .ofValue (.map [
    (.text "components", .map [(.text "schemas", .map [
      (.text "Pet", .map [(.text "properties", .map [(.text "name", .map [])])]),
      (.text "Pet2", .map [(.text "properties", .map [(.text "age", .map [])])])])]),
    (.text "inner", .map [(.text "properties", .map [(.text "id", .map [])])])])
  primitives := pythonPrimitives

/-- The record, which has no name of its own. -/
def petRecord : Node :=
  .ofValue [.key (.text "inner")] (.map [(.text "properties", .map [(.text "id", .map [])])])

/-- Under the hint `Pet` the record gets the name `Pet3`, which is its own, and the component keeps
its name. -/
theorem names_kept_pets :
    ∃ start t, Session.start pets.doc = .ok start ∧ t = (pets.resolve petRecord "Pet" start).2 ∧
      pets.Owns start t petRecord.address "Pet3" ∧
      ∃ name, start.components.lookup (String.ofList (unescapeSegment "Pet".toList)) = some name ∧
        pets.HasName t (componentReference "Pet".toList) name := by
  have hrun : (Session.start pets.doc).map (fun start =>
      (pets.resolve petRecord "Pet" start).2.inlines.lookup petRecord.address) =
        .ok (some "Pet3") := by
    rfl
  cases hstart : Session.start pets.doc with
  | error fault =>
    rw [hstart] at hrun
    cases hrun
  | ok start =>
    rw [hstart] at hrun
    have hname := Except.ok.inj hrun
    have hlater : pets.Later start (pets.resolve petRecord "Pet" start).2 := Later.refl.resolve _ _
    obtain ⟨howns, hcomponent⟩ := names_kept hstart
    have htarget : pets.target (componentReference "Pet".toList) = .ok (_, true) := rfl
    obtain ⟨name, hlookup, hreference⟩ := hcomponent (by decide) htarget
    exact ⟨start, _, rfl, rfl, howns hlater hname .refl, name, hlookup, hreference hlater⟩

end Resolver

end ServiceContract
