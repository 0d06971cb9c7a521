import ServiceContract.Proofs.Schema.Again
import ServiceContract.Proofs.Schema.Name

/-!
# Declarations and their schemas

Every declaration belongs to an origin, whose name it has, and is made from the schema behind the
origin. The declaration of an object is a record with one field for each of its properties, in their
order; what the field is named and whether it is required is read off the property and the required
names alone.

This holds for what is declared at parts of the document, which are told apart by their addresses.

## Main definitions

* `Field.IsFor`: the name of a field and whether it is required.
* `Resolver.Behind`, `Resolver.Shows`: the schema of an origin, and what is declared for a schema.
* `Resolver.Accounted`: every declaration is that of an origin.
* `Resolver.Reaches`: the sessions that come after one by steps at parts of the document.

## Main results

* `Resolver.Partial.accounted`: resolutions keep the declarations accounted for.
* `Resolver.Reaches.moves_of`, `Resolver.Reaches.accounted`: later sessions.
* `Resolver.buildPaths_accounted`: the sessions after the methods of paths.
-/

namespace ServiceContract

open Build

/-- The field for a property, given the names that are required, whatever its type and its
description are. -/
structure Field.IsFor (required : List Scalar) (property : Scalar × Node) (f : Field) : Prop where
  key : property.1 = .text f.wireName
  name : f.name = nonEmpty (Naming.camel f.wireName) f.wireName
  required : f.required = required.contains property.1

namespace Resolver

variable {r : Resolver} {s t u : Session} {o : Origin} {schema : Node} {name : String}

/-- The fields of a record are for its properties, one for each. -/
theorem isFor_of_resolveFields {resolve : Node → String → Build TypeExpr} {owner : String}
    {required : List Scalar} {properties : List (Scalar × Node)} {fields : List Field}
    (h : resolveFields resolve owner required properties s = (.ok fields, t)) :
    List.Forall₂ (Field.IsFor required) properties fields := by
  induction properties generalizing s fields with
  | nil =>
    obtain ⟨rfl, rfl⟩ := pure_eq_ok.mp h
    exact .nil
  | cons e properties ih =>
    obtain ⟨key, property⟩ := e
    obtain ⟨wireName, hkey, h⟩ := lift_bind_eq_ok.mp h
    obtain ⟨type, s₁, -, h⟩ := bind_eq_ok.mp h
    obtain ⟨value, -, h⟩ := lift_bind_eq_ok.mp h
    obtain ⟨description, -, h⟩ := lift_bind_eq_ok.mp h
    obtain ⟨fields, s₂, hfields, h⟩ := bind_eq_ok.mp h
    obtain ⟨rfl, rfl⟩ := pure_eq_ok.mp h
    refine .cons ⟨?_, rfl, rfl⟩ (ih hfields)
    cases key <;> simp_all [Node.asText]

/-! ### Origins -/

variable (r) in
/-- The schema that is declared for an origin: the one that a reference leads to, or one that is
declared where it stands, at the address. -/
inductive Behind : Origin → Node → Prop
  | reference {ref : String} {schema : Node} (h : r.target ref = .ok (schema, true)) :
    Behind (.reference ref) schema
  | inline {schema : Node} {label : String} (h : r.form schema label = .ok .inline) :
    Behind (.inline schema.address) schema

variable (r) in
/-- What is declared for a schema. -/
inductive Shows (schema : Node) : Declaration → Prop
  | enumeration {name description : String} {valueType : TypeExpr} {members : List (String × Value)}
    (h : r.blueprint schema name = .ok (.enumeration valueType members description)) :
    Shows schema (.enumeration name valueType members description)
  | record {name description : String} {required : List Scalar} {properties : List (Scalar × Node)}
    {fields : List Field}
    (h : r.blueprint schema name = .ok (.record required properties description))
    (hfields : List.Forall₂ (Field.IsFor required) properties fields) :
    Shows schema (.record name fields description)

variable (r) in
/-- Every declaration has the name of an origin and is that of the schema behind it. -/
def Accounted (s : Session) : Prop :=
  ∀ d ∈ s.declarations, ∃ o schema, r.Named s o d.name ∧ r.Behind o schema ∧ r.doc.Part schema ∧
    r.Shows schema d

theorem Named.of_extends (h : r.Named s o name) (ht : s.Extends t) : r.Named t o name := by
  cases o with
  | reference ref => exact ⟨h.1, ht.references h.2⟩
  | inline a => exact ht.inlines h

theorem Accounted.of_extends (h : r.Accounted s) (ht : s.Extends t)
    (hd : t.declarations = s.declarations) :
    r.Accounted t := by
  intro d hmem
  obtain ⟨o, schema, hnamed, hrest⟩ := h d (hd ▸ hmem)
  exact ⟨o, schema, hnamed.of_extends ht, hrest⟩

theorem Accounted.declare (h : r.Accounted s) {d : Declaration} (hnamed : r.Named s o d.name)
    (hbehind : r.Behind o schema) (hpart : r.doc.Part schema) (hshows : r.Shows schema d) :
    r.Accounted (Build.declare d s).2 := by
  have hextends : s.Extends (Build.declare d s).2 := (declare_grows (r := r) d s).extends
  intro d' hmem
  rcases List.mem_append.mp hmem with hmem | hmem
  · obtain ⟨o', schema', hnamed', hrest⟩ := h d' hmem
    exact ⟨o', schema', hnamed'.of_extends hextends, hrest⟩
  · cases List.mem_singleton.mp hmem
    exact ⟨o, schema, hnamed.of_extends hextends, hbehind, hpart, hshows⟩

theorem start_accounted (h : Session.start r.doc = .ok s) : r.Accounted s := by
  rw [Session.start_eq h]
  exact fun d hd => absurd hd List.not_mem_nil

/-! ### Resolution -/

variable (r) in
/-- The session grows, and what it declares stays accounted for. -/
def GrowsAccounted (s t : Session) : Prop :=
  r.Grows s t ∧ (r.Accounted s → r.Accounted t)

instance : IsPreorder Session r.GrowsAccounted where
  refl s := ⟨refl_of r.Grows s, id⟩
  trans _ _ _ h h' := ⟨trans_of r.Grows h.1 h'.1, h'.2 ∘ h.2⟩

theorem Grows.accounted (h : r.Grows s t) (hd : t.declarations = s.declarations) :
    r.GrowsAccounted s t :=
  ⟨h, fun hs => hs.of_extends h.extends hd⟩

section Step

variable {resolve : Node → String → Build TypeExpr}
  (hf : ∀ n hint, r.doc.Part n → Moves r.GrowsAccounted (resolve n hint))
include hf

/-- The declaration of an origin that has got its name. -/
theorem declareType_accounted (hnamed : r.Named s o name) (hbehind : r.Behind o schema)
    (hpart : r.doc.Part schema) : r.GrowsAccounted s (r.declareType resolve schema name s).2 := by
  have hparts := r.doc.part_hereditary
  rw [declareType_eq]
  cases hb : r.blueprint schema name with
  | error fault => exact refl_of r.GrowsAccounted s
  | ok blueprint =>
    change r.GrowsAccounted s (declareBlueprint resolve name blueprint s).2
    cases blueprint with
    | enumeration valueType members description =>
      exact ⟨declare_grows _ s, fun hs => hs.declare hnamed hbehind hpart (.enumeration hb)⟩
    | record required properties description =>
      have hproperties := hparts.blueprint rfl hpart hb
      have hmoves :=
        resolveFields_moves_of hf name required (fun e he => hparts.orEmpty (hproperties e he)) s
      refine Moves.bind_at hmoves fun {fields t} hfields => ?_
      rw [hfields] at hmoves
      refine ⟨declare_grows _ t, fun ht => ht.declare ?_ hbehind hpart (.record hb ?_)⟩
      · exact hnamed.of_extends hmoves.1.extends
      · exact isFor_of_resolveFields hfields

/-- Declarations stay accounted for along one step of resolution if they do along the resolutions
inside it. -/
theorem resolveStep_accounted (hgrows : ∀ n hint, Moves r.Grows (resolve n hint))
    (hpart : r.doc.Part schema) (hint : String) :
    Moves r.GrowsAccounted (r.resolveStep resolve schema hint) := by
  have hparts := r.doc.part_hereditary
  refine resolveStep_moves_of hparts hf (resolveReference_moves (fun {ref n s} hs ht hr => ⟨?_, ?_⟩)
    fun {ref n s} hs ht {name t} hname => ?_)
    (fun hform => resolveInline_moves_of (fun {hint s} hs {name t} hname => ?_) hint) hpart
  · refine ⟨whileResolving_grows hgrows ref n _, fun haccounted => ?_⟩
    have hinside := (hf n (Naming.pascal (referenceName ref)) (hparts.target rfl ht)
      { s with resolving := ref :: s.resolving }).2
    exact (hinside (haccounted.of_extends ⟨id, id⟩ rfl)).of_extends ⟨id, id⟩ rfl
  · exact fun hres => (remember_grows hgrows hs ht hr hres _).accounted rfl
  · have hreserve :=
      (reserveReference_grows hs ht hname).accounted (declarations_reserveReference hname)
    have hnamed : r.Named t (.reference ref) name := by
      refine ⟨⟨n, ht⟩, ?_⟩
      rw [(reserveReference_eq_ok hname).1]
      exact List.lookup_cons_self
    exact trans_of _ hreserve
      (declareType_accounted hf hnamed (.reference ht) (hparts.target rfl ht))
  · have hreserve :=
      (reserveInline_grows (r := r) hs hname).accounted (declarations_reserveInline hname)
    have hnamed : r.Named t (.inline schema.address) name := by
      rw [Named, (reserveInline_eq_ok hname).2.1]
      exact List.lookup_cons_self
    exact trans_of _ hreserve (declareType_accounted hf hnamed (.inline hform) hpart)

end Step

/-- Declarations stay accounted for along resolutions, whole or broken off. -/
theorem Partial.accounted {fuel : Nat} {hint : String} {out : Except Fault TypeExpr × Session}
    (h : r.Partial fuel schema hint s out) (hpart : r.doc.Part schema) :
    r.GrowsAccounted s out.2 := by
  induction h with
  | off fuel schema hint s fault => exact refl_of r.GrowsAccounted s
  | step fuel schema hint s resolve hp ih =>
    exact resolveStep_accounted (fun n hint hn s => ih n hint s hn)
      (fun n hint s => (hp n hint s).grows) hpart hint s

/-! ### Steps at parts of the document -/

variable (r) in
/-- The sessions that come after `s` by steps at parts of the document, whether they fail or not,
those in the midst of steps included. -/
inductive Reaches (s : Session) : Session → Prop
  | refl : Reaches s s
  | resolved {t : Session} {fuel : Nat} {schema : Node} {hint : String}
    {out : Except Fault TypeExpr × Session} (h : Reaches s t) (hle : fuel ≤ r.stepBound)
    (hpart : r.doc.Part schema) (hp : r.Partial fuel schema hint t out) : Reaches s out.2
  | bound {t : Session} {pathItem operation : Node} (owner : String) (h : Reaches s t)
    (hi : r.doc.Part pathItem) (ho : r.doc.Part operation) :
    Reaches s (bindParameters r pathItem operation owner t).2
  | built {t : Session} (includeResponse : Bool) (path : Scalar) {pathItem : Node}
    (httpMethod : String) {operation : Node} (h : Reaches s t) (hi : r.doc.Part pathItem)
    (ho : r.doc.Part operation) :
    Reaches s (buildMethod r includeResponse path pathItem httpMethod operation t).2
  | aside {t : Session} (resolving : List String) (events : List Event) (h : Reaches s t) :
    Reaches s { t with resolving, events }

theorem Reaches.later (h : r.Reaches s t) : r.Later s t := by
  induction h with
  | refl => exact .refl
  | resolved _ hle _ hp ih => exact .resolved ih hle hp
  | bound owner _ _ _ ih => exact .bound _ _ owner ih
  | built includeResponse path httpMethod _ _ _ ih =>
    exact .built includeResponse path _ httpMethod _ ih
  | aside resolving events _ ih => exact .aside resolving events ih

theorem Reaches.trans (h : r.Reaches s t) (h' : r.Reaches t u) : r.Reaches s u := by
  induction h' with
  | refl => exact h
  | resolved _ hle hpart hp ih => exact .resolved ih hle hpart hp
  | bound owner _ hi ho ih => exact .bound owner ih hi ho
  | built includeResponse path httpMethod _ hi ho ih =>
    exact .built includeResponse path httpMethod ih hi ho
  | aside resolving events _ ih => exact .aside resolving events ih

/-- What relates a session to those after it: every relation that resolutions of parts of the
document, events and methods keep to. -/
theorem Reaches.moves_of {R : Session → Session → Prop} [IsPreorder Session R] (h : r.Reaches s t)
    (hp : ∀ {fuel schema hint s out}, r.doc.Part schema →
      r.Partial fuel schema hint s out → R s out.2)
    (hn : ∀ e, Moves R (note e)) (hm : ∀ m, Moves R (addMethod m))
    (haside : ∀ t resolving events, R t { t with resolving, events }) : R s t := by
  have hf (n : Node) (hint : String) (hn : r.doc.Part n) : Moves R (r.resolve n hint) :=
    fun s => hp hn (.resolveWithin r.stepBound n hint s)
  have hparts := r.doc.part_hereditary
  induction h with
  | refl => exact refl_of R s
  | resolved _ _ hpart hpartial ih => exact trans_of R ih (hp hpart hpartial)
  | bound owner _ hi ho ih =>
    exact trans_of R ih ((bindParameters_parallel hparts hi ho owner).moves_of hf hn hm _)
  | built includeResponse path httpMethod _ hi ho ih =>
    have hmethod := buildMethod_parallel hparts includeResponse path httpMethod hi ho
    exact trans_of R ih (hmethod.moves_of hf hn hm _)
  | aside resolving events _ ih => exact trans_of R ih (haside _ resolving events)

theorem note_accounted (e : Event) :
    Moves r.GrowsAccounted (note e) := fun s => (note_grows e s).accounted rfl

theorem addMethod_accounted (m : Method) : Moves r.GrowsAccounted (addMethod m) := fun s =>
  (addMethod_grows m s).accounted rfl

theorem Reaches.accounted (h : r.Reaches s t) (hs : r.Accounted s) : r.Accounted t := by
  let R (s t : Session) : Prop := r.Accounted s → r.Accounted t
  have : IsPreorder Session R := { refl := fun _ => id, trans := fun _ _ _ h h' => h' ∘ h }
  exact h.moves_of (R := R) (fun hpart hp => (hp.accounted hpart).2)
    (fun e s => (note_accounted e s).2) (fun m s => (addMethod_accounted m s).2)
    (fun _ _ _ h => h.of_extends ⟨id, id⟩ rfl) hs

/-- What the methods of paths declare is accounted for. -/
theorem buildPaths_accounted (includeResponse : Bool) {paths : List (Scalar × Node)}
    (hp : ∀ e ∈ paths, r.doc.Part e.2) :
    Moves r.GrowsAccounted (buildPaths r includeResponse paths) :=
  (buildPaths_parallel r.doc.part_hereditary includeResponse hp).moves_of
    (fun n hint hn s => (Partial.resolveWithin r.stepBound n hint s).accounted hn) note_accounted
    addMethod_accounted

end Resolver

end ServiceContract
