import Mathlib.Data.List.Forall2
import ServiceContract.Proofs.Schema.Fuel
import ServiceContract.Proofs.Schema.Label
import ServiceContract.Proofs.Session.Growth
import ServiceContract.Proofs.Session.Start

/-!
# Resolving a schema again

A schema that has been resolved has the same type ever after: every reference and every inline
schema on the way to its type has got a type or a name, which it keeps, so that a later resolution
only looks them up. It changes nothing, whatever the hint is, and no alias in progress stands in its
way.

## Main definitions

* `Session.Extends`: a session in which references and inline schemas have what they have in
  another.
* `Resolver.Settled`: a schema has a type from a session on.
* `Resolver.Backed`: the fields of a record have the types of the properties they are for.

## Main results

* `Resolver.settled_of_resolveWithin`: a schema that has been resolved is settled.
* `Resolver.resolve_again`: resolving a schema again, and the types of fields.
-/

namespace ServiceContract

open Build

/-- References and inline schemas have in `t` what they have in `s`. -/
structure Session.Extends (s t : Session) : Prop where
  references : ∀ {ref type}, s.references.lookup ref = some type →
    t.references.lookup ref = some type
  inlines : ∀ {a name}, s.inlines.lookup a = some name → t.inlines.lookup a = some name

namespace Session.Extends

theorem refl (s : Session) : s.Extends s := ⟨id, id⟩

theorem trans {s t u : Session} (h : s.Extends t) (h' : t.Extends u) : s.Extends u :=
  ⟨fun hs => h'.references (h.references hs), fun hs => h'.inlines (h.inlines hs)⟩

end Session.Extends

namespace Resolver

variable {r : Resolver} {schema : Node} {hint : String} {s t : Session} {type : TypeExpr}

theorem Grows.extends (h : r.Grows s t) : s.Extends t := ⟨h.references, h.inlines⟩

section Step

variable {resolve : Node → String → Build TypeExpr} (hf : ∀ n hint, Moves r.Grows (resolve n hint))
include hf

/-- A reference that has been resolved has its type. -/
theorem lookup_of_resolveReference {ref : String}
    (h : r.resolveReference resolve ref s = (.ok type, t)) :
    t.references.lookup ref = some type := by
  cases referenceOutcome h with
  | cached hs => exact hs
  | inherited => exact List.lookup_cons_self
  | @named n name u _ hs ht hname hdeclare =>
    obtain ⟨href, -⟩ := reserveReference_eq_ok hname
    have hgrows := declareType_moves (r := r) hf declare_grows n name u
    rw [hdeclare] at hgrows
    exact hgrows.references (href ▸ List.lookup_cons_self)

/-- An inline schema that has been resolved has its name. -/
theorem lookup_of_resolveInline (h : r.resolveInline resolve schema hint s = (.ok type, t)) :
    ∃ name, type = .declared name ∧ t.inlines.lookup schema.address = some name := by
  cases inlineOutcome h with
  | cached hs => exact ⟨_, rfl, hs⟩
  | @new name u _ hs hname hdeclare =>
    obtain ⟨-, hin, -⟩ := reserveInline_eq_ok hname
    have hgrows := declareType_moves (r := r) hf declare_grows schema name u
    rw [hdeclare] at hgrows
    exact ⟨_, rfl, hgrows.inlines (hin ▸ List.lookup_cons_self)⟩

end Step

/-! ### Settled schemas -/

variable (r) in
/-- In every session from `s` on a schema has the type `type`, which is found without a change in at
most `fuel` steps inside one another. -/
def Settled (fuel : Nat) (schema : Node) (type : TypeExpr) (s : Session) : Prop :=
  ∀ ⦃t later⦄, s.Extends t → fuel ≤ later → ∀ hint,
    r.resolveWithin later schema hint t = (.ok type, t)

theorem Settled.of_extends {fuel : Nat} (h : r.Settled fuel schema type s) (ht : s.Extends t) :
    r.Settled fuel schema type t :=
  fun _ _ hu => h (ht.trans hu)

theorem Settled.mono {fuel more : Nat} (h : r.Settled fuel schema type s) (hle : fuel ≤ more) :
    r.Settled more schema type s :=
  fun _ _ ht hlater => h ht (Nat.le_trans hle hlater)

/-- A schema that is resolved in one step is settled if the schemas inside it are. -/
theorem settled_of_resolveStep {resolve : Node → String → Build TypeExpr} {fuel : Nat}
    (hf : ∀ n hint, Moves r.Grows (resolve n hint))
    (hok : ∀ {n hint s t type}, resolve n hint s = (.ok type, t) → r.Settled fuel n type t)
    (h : r.resolveStep resolve schema hint s = (.ok type, t)) :
    r.Settled (fuel + 1) schema type t := by
  rw [resolveStep_eq, lift_bind_eq_ok] at h
  obtain ⟨form, hform, h⟩ := h
  intro u later hu hle hint'
  obtain ⟨later, rfl⟩ := Nat.exists_eq_add_of_le' (Nat.one_le_of_lt hle)
  have hle : fuel ≤ later := Nat.le_of_succ_le_succ hle
  rw [resolveWithin, resolveStep_eq]
  refine lift_bind_eq_ok.mpr ⟨form, form_agrees form hform, ?_⟩
  cases form with
  | absent =>
    obtain ⟨rfl, rfl⟩ := pure_eq_ok.mp h
    rfl
  | reference ref =>
    exact resolveReference_cached (hu.references (lookup_of_resolveReference hf h))
  | wrapper inner => exact hok h hu hle hint'
  | inline =>
    obtain ⟨name, rfl, hname⟩ := lookup_of_resolveInline hf h
    exact resolveInline_cached (hu.inlines hname)
  | list items =>
    obtain ⟨item, t', hitem, h⟩ := bind_eq_ok.mp h
    obtain ⟨rfl, rfl⟩ := pure_eq_ok.mp h
    exact bind_eq_ok.mpr ⟨item, u, hok hitem hu hle _, rfl⟩
  | map values =>
    obtain ⟨value, t', hvalue, h⟩ := bind_eq_ok.mp h
    obtain ⟨rfl, rfl⟩ := pure_eq_ok.mp h
    exact bind_eq_ok.mpr ⟨value, u, hok hvalue hu hle _, rfl⟩
  | primitive name =>
    obtain ⟨rfl, rfl⟩ := pure_eq_ok.mp h
    rfl

/-- A schema is settled by a resolution that gives its type. -/
theorem Partial.settled {fuel : Nat} (h : r.Partial fuel schema hint s (.ok type, t)) :
    r.Settled fuel schema type t := by
  generalize hout : (Except.ok type, t) = out at h
  induction h generalizing type t with
  | off => cases hout
  | step fuel schema hint s resolve hp ih =>
    exact settled_of_resolveStep (fun n hint s => (hp n hint s).grows)
      (fun {n hint s t type} hres => ih n hint s hres.symm) hout.symm

theorem settled_of_resolveWithin {fuel : Nat}
    (h : r.resolveWithin fuel schema hint s = (.ok type, t)) : r.Settled fuel schema type t :=
  (h ▸ Partial.resolveWithin fuel schema hint s).settled

/-! ### The fields of records -/

variable (r) in
/-- A schema has a name: as the target of a reference, or as an inline schema. -/
def Names (s : Session) (schema : Node) (name : String) : Prop :=
  (∃ ref, r.target ref = .ok (schema, true) ∧ s.references.lookup ref = some (.declared name)) ∨
    s.inlines.lookup schema.address = some name

theorem Names.of_extends {name : String} (h : r.Names s schema name) (ht : s.Extends t) :
    r.Names t schema name :=
  h.imp (fun ⟨ref, href, hs⟩ => ⟨ref, href, ht.references hs⟩) ht.inlines

theorem names_of_reserveReference {ref name : String} (ht : r.target ref = .ok (schema, true))
    (hname : reserveReference ref s = (.ok name, t)) : r.Names t schema name := by
  obtain ⟨_, taken, -, hname'⟩ := reserveReference_apply ref s
  rw [hname'] at hname
  cases hname
  exact .inl ⟨ref, ht, List.lookup_cons_self⟩

theorem names_of_reserveInline {name : String}
    (hname : reserveInline schema hint s = (.ok name, t)) : r.Names t schema name := by
  rw [reserveInline_apply] at hname
  cases hname
  exact .inr List.lookup_cons_self

variable (r) in
/-- The field of a record is for the property at one of its keys, whose schema is settled. An absent
schema counts as the empty one. -/
structure FieldFor (fuel : Nat) (s : Session) (property : Scalar × Node) (f : Field) : Prop where
  wireName : property.1 = .text f.wireName
  settled : r.Settled fuel property.2.orEmpty f.type s

variable (r) in
/-- The fields of a record are for the properties of a schema that has the name of the record. -/
def Backed (fuel : Nat) (s : Session) : Declaration → Prop
  | .record name fields _ => ∃ schema shape, r.Names s schema name ∧
      r.shapeOf schema name = .ok shape ∧
      List.Forall₂ (r.FieldFor fuel s) shape.properties fields
  | .enumeration .. => True

theorem FieldFor.of_extends {fuel : Nat} {property : Scalar × Node} {f : Field}
    (h : r.FieldFor fuel s property f) (ht : s.Extends t) : r.FieldFor fuel t property f :=
  ⟨h.wireName, h.settled.of_extends ht⟩

theorem Backed.of_extends {fuel : Nat} {d : Declaration} (h : r.Backed fuel s d)
    (ht : s.Extends t) : r.Backed fuel t d := by
  cases d with
  | enumeration => trivial
  | record name fields description =>
    obtain ⟨schema, shape, hname, hshape, hfields⟩ := h
    exact ⟨schema, shape, hname.of_extends ht, hshape, hfields.imp fun _ _ h => h.of_extends ht⟩

theorem Backed.mono {fuel more : Nat} {d : Declaration} (h : r.Backed fuel s d)
    (hle : fuel ≤ more) : r.Backed more s d := by
  cases d with
  | enumeration => trivial
  | record name fields description =>
    obtain ⟨schema, shape, hname, hshape, hfields⟩ := h
    exact ⟨schema, shape, hname, hshape,
      hfields.imp fun _ _ h => ⟨h.wireName, h.settled.mono hle⟩⟩

variable (r) in
/-- The session grows, and every declaration that is added is backed. -/
structure GrowsBacked (fuel : Nat) (s t : Session) : Prop extends r.Grows s t where
  backed : ∀ d ∈ t.declarations, d ∈ s.declarations ∨ r.Backed fuel t d

instance (fuel : Nat) : IsPreorder Session (r.GrowsBacked fuel) where
  refl s := ⟨refl_of r.Grows s, fun _ => .inl⟩
  trans _ _ _ h h' :=
    { trans_of r.Grows h.toGrows h'.toGrows with
      backed := fun d hd => (h'.backed d hd).elim
        (fun hd => (h.backed d hd).imp_right fun hb => hb.of_extends h'.extends) .inr }

theorem GrowsBacked.mono {fuel more : Nat} (h : r.GrowsBacked fuel s t) (hle : fuel ≤ more) :
    r.GrowsBacked more s t :=
  { h with backed := fun d hd => (h.backed d hd).imp_right fun hb => hb.mono hle }

/-- A session that grows without a new declaration. -/
theorem Grows.backed {fuel : Nat} (h : r.Grows s t) (hd : t.declarations = s.declarations) :
    r.GrowsBacked fuel s t :=
  { h with backed := fun _ hmem => .inl (hd ▸ hmem) }

section Step

variable {resolve : Node → String → Build TypeExpr} {fuel : Nat}
  (hf : ∀ n hint, Moves (r.GrowsBacked fuel) (resolve n hint))
  (hok : ∀ {n hint s t type}, resolve n hint s = (.ok type, t) → r.Settled fuel n type t)
include hf hok

theorem fieldFor_of_resolveFields {owner : String} {required : List Scalar}
    {properties : List (Scalar × Node)} {fields : List Field}
    (h : resolveFields resolve owner required properties s = (.ok fields, t)) :
    List.Forall₂ (r.FieldFor fuel t) properties fields := by
  induction properties generalizing s fields with
  | nil =>
    obtain ⟨rfl, rfl⟩ := pure_eq_ok.mp h
    exact .nil
  | cons e properties ih =>
    obtain ⟨key, property⟩ := e
    obtain ⟨wireName, hkey, h⟩ := lift_bind_eq_ok.mp h
    obtain ⟨type, s₁, htype, h⟩ := bind_eq_ok.mp h
    obtain ⟨value, -, h⟩ := lift_bind_eq_ok.mp h
    obtain ⟨description, -, h⟩ := lift_bind_eq_ok.mp h
    obtain ⟨fields, s₂, hfields, h⟩ := bind_eq_ok.mp h
    obtain ⟨rfl, rfl⟩ := pure_eq_ok.mp h
    have hgrows := resolveFields_moves hf owner required properties s₁
    rw [hfields] at hgrows
    refine .cons ⟨?_, (hok htype).of_extends hgrows.extends⟩ (ih hfields)
    cases key <;> simp_all [Node.asText]

theorem declareType_backed {name : String} (hs : r.Names s schema name) :
    r.GrowsBacked fuel s (r.declareType resolve schema name s).2 := by
  rw [declareType_eq]
  cases hb : r.blueprint schema name with
  | error fault => exact refl_of _ s
  | ok blueprint =>
    change r.GrowsBacked fuel s (declareBlueprint resolve name blueprint s).2
    cases blueprint with
    | enumeration valueType members description =>
      refine ⟨declare_grows _ s, fun d hd => (List.mem_append.mp hd).imp_right fun hd => ?_⟩
      rw [List.mem_singleton.mp hd]
      trivial
    | record required properties description =>
      have hmoves := resolveFields_moves hf name required properties s
      refine Moves.bind_at hmoves fun {fields t} hfields => ?_
      refine ⟨declare_grows _ t, fun d hd => (List.mem_append.mp hd).imp_right fun hd => ?_⟩
      rw [List.mem_singleton.mp hd]
      rw [hfields] at hmoves
      obtain ⟨shape, hshape, -, rfl⟩ := shapeOf_of_blueprint hb
      have hgrows := declare_grows (r := r) (.record name fields description) t
      exact ⟨schema, shape, (hs.of_extends hmoves.extends).of_extends hgrows.extends, hshape,
        (fieldFor_of_resolveFields hf hok hfields).imp fun _ _ h => h.of_extends hgrows.extends⟩

/-- Added declarations are backed along one step of resolution if they are along the resolutions
inside it. -/
theorem resolveStep_backed (schema : Node) (hint : String) :
    Moves (r.GrowsBacked fuel) (r.resolveStep resolve schema hint) := by
  have hgrows (n : Node) (hint : String) : Moves r.Grows (resolve n hint) :=
    fun s => (hf n hint s).toGrows
  refine resolveStep_moves hf (resolveReference_moves (fun {ref n s} hs ht hr => ⟨?_, ?_⟩)
    fun {ref n s} hs ht {name t} hname => ?_)
    (resolveInline_moves fun {n hint s} hs {name t} hname => ?_) schema hint
  · refine { whileResolving_grows hgrows ref n _ with backed := fun d hd => ?_ }
    exact ((hf n _ { s with resolving := ref :: s.resolving }).backed d hd).imp_right
      fun hb => hb.of_extends ⟨id, id⟩
  · exact fun hres => (remember_grows hgrows hs ht hr hres _).backed rfl
  · have hreserve := reserveReference_grows hs ht hname
    exact trans_of _ (hreserve.backed (declarations_reserveReference hname))
      (declareType_backed hf hok (names_of_reserveReference ht hname))
  · have hreserve := reserveInline_grows (r := r) hs hname
    exact trans_of _ (hreserve.backed (declarations_reserveInline hname))
      (declareType_backed hf hok (names_of_reserveInline hname))

end Step

theorem Partial.backed {fuel : Nat} {out : Except Fault TypeExpr × Session}
    (h : r.Partial fuel schema hint s out) : r.GrowsBacked fuel s out.2 := by
  induction h with
  | off fuel schema hint s fault => exact refl_of (r.GrowsBacked fuel) s
  | step fuel schema hint s resolve hp ih =>
    have hok {n hint s t type} (hres : resolve n hint s = (.ok type, t)) :
        r.Settled fuel n type t :=
      (hres ▸ hp n hint s).settled
    exact (resolveStep_backed ih hok schema hint s).mono (Nat.le_succ fuel)

/-! ### Later sessions -/

theorem Later.extends (h : r.Later s t) : s.Extends t := by
  have : IsPreorder Session Session.Extends := { refl := .refl, trans := fun _ _ _ => .trans }
  exact h.moves (fun _ hp => hp.grows.extends) (fun e s => (note_grows (r := r) e s).extends)
    (fun m s => (addMethod_grows (r := r) m s).extends) fun _ _ _ => ⟨id, id⟩

/-- The declarations of later sessions are backed if those at the beginning are. -/
theorem Later.backed (h : r.Later s t) (hs : ∀ d ∈ s.declarations, r.Backed r.stepBound s d) :
    ∀ d ∈ t.declarations, r.Backed r.stepBound t d := by
  let R (s t : Session) : Prop := (∀ d ∈ s.declarations, r.Backed r.stepBound s d) →
    ∀ d ∈ t.declarations, r.Backed r.stepBound t d
  have : IsPreorder Session R := { refl := fun _ => id, trans := fun _ _ _ h h' => h' ∘ h }
  have hmoves {s t : Session} (h : r.GrowsBacked r.stepBound s t) : R s t := fun hs d hd =>
    (h.backed d hd).elim (fun hd => (hs d hd).of_extends h.extends) id
  refine h.moves (fun hle hp => hmoves (hp.backed.mono hle))
    (fun e s => hmoves ((note_grows e s).backed rfl))
    (fun m s => hmoves ((addMethod_grows m s).backed rfl)) (fun t resolving events => ?_) hs
  exact fun ht d hd => (ht d hd).of_extends ⟨id, id⟩

/-- What was resolved once has the same type ever after, and finding it changes nothing. Under a
smaller bound it may be endless, but nothing else. -/
theorem Settled.resolveWithin_eq {fuel : Nat} (h : r.Settled fuel schema type s) (other : Nat)
    (hint : String) :
    (r.resolveWithin other schema hint s).1 = .error .endless ∨
      r.resolveWithin other schema hint s = (.ok type, s) := by
  refine (resolveWithin_outlasts (Nat.le_max_right fuel other) schema hint s).imp_right fun hs => ?_
  rw [← hs]
  exact h (.refl s) (Nat.le_max_left fuel other) hint

/-- A schema that has been resolved, at the top or inside another one, is found again with the same
type in every later session, under every hint, and nothing changes. In particular a field of a
record has the type that its property has, at any later time, where the record is declared for a
schema with its name and an absent property counts as the empty schema. -/
theorem resolve_again (r : Resolver) :
    (∀ {fuel schema hint s type t u}, r.resolveWithin fuel schema hint s = (.ok type, t) →
      r.Later t u → ∀ other hint',
        (fuel ≤ other → r.resolveWithin other schema hint' u = (.ok type, u)) ∧
        ((r.resolveWithin other schema hint' u).1 = .error .endless ∨
          r.resolveWithin other schema hint' u = (.ok type, u))) ∧
    ∀ {start t}, Session.start r.doc = .ok start → r.Later start t →
      ∀ {name fields description}, .record name fields description ∈ t.declarations →
        ∃ schema shape, r.Names t schema name ∧ r.shapeOf schema name = .ok shape ∧
          List.Forall₂ (fun property f => property.1 = .text f.wireName ∧
              ∀ u, r.Later t u → ∀ hint, r.resolve property.2.orEmpty hint u = (.ok f.type, u))
            shape.properties fields := by
  refine ⟨fun {fuel schema hint s type t u} h hu other hint' => ?_, fun {start t} hstart ht => ?_⟩
  · have hsettled := (settled_of_resolveWithin h).of_extends hu.extends
    exact ⟨fun hle => hsettled (.refl u) hle hint', hsettled.resolveWithin_eq other hint'⟩
  · intro name fields description hd
    have hdecls : start.declarations = [] := by
      rw [Session.start_eq hstart]
      rfl
    have hbacked := ht.backed (by simp [hdecls]) _ hd
    obtain ⟨schema, shape, hname, hshape, hfields⟩ := hbacked
    refine ⟨schema, shape, hname, hshape, hfields.imp fun property f h => ⟨h.wireName, ?_⟩⟩
    exact fun u hu hint => h.settled hu.extends (Nat.le_refl _) hint

/-- A document with a record that mentions itself. -/
def selfReferring : Resolver where
  doc := .ofValue (.map [(.text "components", .map [(.text "schemas", .map [(.text "Tree",
    .map [(.text "properties", .map [(.text "left",
      .map [(.text "$ref", .text "#/components/schemas/Tree")])])])])])])
  primitives := pythonPrimitives

/-- The reference to the record. -/
def selfReference : Node :=
  .ofReference "#/components/schemas/Tree"

theorem resolve_again_selfReferring :
    ∃ start t, Session.start selfReferring.doc = .ok start ∧
      selfReferring.resolve selfReference "" start = (.ok (.declared "Tree"), t) ∧
      (∀ u, selfReferring.Later t u → ∀ hint,
        selfReferring.resolve selfReference hint u = (.ok (.declared "Tree"), u)) ∧
      ∃ f, .record "Tree" [f] "" ∈ t.declarations ∧ ∃ schema shape,
        selfReferring.Names t schema "Tree" ∧ selfReferring.shapeOf schema "Tree" = .ok shape ∧
          List.Forall₂ (fun property f => property.1 = .text f.wireName ∧ ∀ u,
            selfReferring.Later t u → ∀ hint,
              selfReferring.resolve property.2.orEmpty hint u = (.ok f.type, u))
            shape.properties [f] := by
  have hrun : (do
      let start ← Session.start selfReferring.doc
      let type ← (selfReferring.resolve selfReference "" start).1
      return (type, (selfReferring.resolve selfReference "" start).2.declarations) :
        Except Fault (TypeExpr × List Declaration)) = .ok (.declared "Tree",
          [.record "Tree" [⟨"left", "left", .declared "Tree", false, ""⟩] ""]) := by
    rfl
  obtain ⟨start, hstart, hrun⟩ := except_bind_eq_ok.mp hrun
  obtain ⟨type, htype, hrun⟩ := except_bind_eq_ok.mp hrun
  cases hres : selfReferring.resolve selfReference "" start with
  | mk result t =>
    rw [hres] at htype hrun
    cases htype
    obtain ⟨rfl, hd⟩ := Prod.mk.inj (Except.ok.inj hrun)
    have hmem : .record "Tree" [⟨"left", "left", .declared "Tree", false, ""⟩] "" ∈
        t.declarations := by
      rw [hd]
      exact List.mem_singleton.mpr rfl
    have hlater : selfReferring.Later start t := by
      have h := (Later.refl (r := selfReferring) (s := start)).resolve selfReference ""
      rwa [hres] at h
    refine ⟨start, t, hstart, hres, fun u hu hint => ?_, _, hmem, ?_⟩
    · exact ((resolve_again selfReferring).1 hres hu selfReferring.stepBound hint).1 (Nat.le_refl _)
    · exact (resolve_again selfReferring).2 hstart hlater hmem

end Resolver

end ServiceContract
