import ServiceContract.Proofs.Document.Copy
import ServiceContract.Proofs.Schema.Contested
import ServiceContract.Proofs.Schema.Label
import ServiceContract.Proofs.Session.Growth
import ServiceContract.Proofs.Session.Start

/-!
# Primitive schemas

A schema is primitive if it has a built-in type: it is no reference, no wrapper and no enumeration,
and states a type that a target has, no type at all, or that of an object of which nothing else is
known. The type is found in one step and changes nothing in the session. A copy of the schema has
the same type, wherever it stands. A reference to it is an alias, so it has this type too, and no
other one in any session.

## Main definitions

* `Node.compoundKeywords`: the keywords that primitive schemas do not have.
* `Session.OnlyType`: a reference has one type, if it has any.
* `Session.KeepsType`: steps along which this stays so.

## Main results

* `Resolver.form_eq_primitive_iff`: what a primitive schema says.
* `Resolver.form_of_isCopy`: copies of primitive schemas.
* `Resolver.Later.onlyType`: the types of references to primitive schemas in later sessions.
* `Resolver.resolve_reference_primitive`: resolving a reference to a primitive schema.
-/

namespace ServiceContract

open Build

namespace Node

/-- The keywords that make a schema a reference, a wrapper, a composition or an enumeration, or are
not supported. -/
def compoundKeywords : List String := ["$ref", "allOf", "oneOf", "anyOf", "not", "enum"]

variable {schema copy type type' format format' : Node} {label : String}

/-- A schema without these keywords is no wrapper. -/
theorem stripLayer_eq_none (h : ∀ key ∈ compoundKeywords, schema.has key = .ok false)
    (label : String) :
    schema.stripLayer label = .ok none := by
  rw [stripLayer, h "$ref" (by decide), h "allOf" (by decide), h "oneOf" (by decide),
    h "anyOf" (by decide)]
  rfl

/-- What is no wrapper and has no `allOf` has no alternatives. -/
theorem has_of_stripLayer {keyword : String} (hkeyword : keyword ∈ ["oneOf", "anyOf"])
    (href : schema.has "$ref" = .ok false) (hmembers : schema.has "allOf" = .ok false)
    (hlayer : schema.stripLayer label = .ok none) : schema.has keyword = .ok false := by
  rw [stripLayer, href, except_ok_bind, if_neg Bool.false_ne_true, hmembers, except_ok_bind,
    if_neg Bool.false_ne_true] at hlayer
  obtain ⟨hasOne, hone, hlayer⟩ := except_bind_eq_ok.mp hlayer
  cases hasOne with
  | true =>
    obtain ⟨inner, -, hlayer⟩ := except_bind_eq_ok.mp hlayer
    cases hlayer
  | false =>
    obtain ⟨hasAny, hany, hlayer⟩ := except_bind_eq_ok.mp hlayer
    cases hasAny with
    | true =>
      obtain ⟨inner, -, hlayer⟩ := except_bind_eq_ok.mp hlayer
      cases hlayer
    | false =>
      rcases List.mem_pair.mp hkeyword with rfl | rfl
      · exact hone
      · exact hany

/-- The built-in type does not depend on where the type and the format stand. -/
theorem IsCopy.lookup (htype : IsCopy type type') (hformat : IsCopy format format')
    (table : PrimitiveTable) :
    table.lookup type format = table.lookup type' format' := by
  unfold PrimitiveTable.lookup
  rw [htype.isKeyLike, hformat.isKeyLike, hformat.isTruthy]
  split_ifs
  · rfl
  · cases htype.top with
    | leaf a b v =>
      cases v with
      | text t =>
        cases hformat.top with
        | leaf a b w => cases w <;> rfl
        | _ => rfl
      | _ => rfl
    | _ => rfl

end Node

namespace Resolver

open Node

variable {r r' : Resolver} {schema copy : Node} {label name ref : String}

/-! ### What primitive schemas say -/

/-- A primitive schema has none of the compound keywords, and its type is the one for what it
states. -/
theorem form_eq_primitive_iff :
    r.form schema label = .ok (.primitive name) ↔ schema.isNull = false ∧
    (∀ key ∈ compoundKeywords, schema.has key = .ok false) ∧
      r.statedForm schema label = .ok (.primitive name) := by
  constructor
  · intro h
    unfold Resolver.form at h
    split_ifs at h with hnull
    · cases h
    refine ⟨Bool.eq_false_iff.mpr hnull, ?_⟩
    obtain ⟨isReference, href, h⟩ := except_bind_eq_ok.mp h
    cases isReference with
    | true =>
      obtain ⟨value, -, h⟩ := except_bind_eq_ok.mp h
      obtain ⟨text, -, h⟩ := except_bind_eq_ok.mp h
      cases h
    | false =>
      obtain ⟨layer, hlayer, h⟩ := except_bind_eq_ok.mp h
      cases layer with
      | some inner =>
        obtain ⟨unwrapped, -, h⟩ := except_bind_eq_ok.mp h
        cases h
      | none =>
        obtain ⟨hasMembers, hmembers, h⟩ := except_bind_eq_ok.mp h
        cases hasMembers with
        | true => cases h
        | false =>
          obtain ⟨hasNot, hnot, h⟩ := except_bind_eq_ok.mp h
          cases hasNot with
          | true => cases h
          | false =>
            obtain ⟨hasEnum, henum, h⟩ := except_bind_eq_ok.mp h
            cases hasEnum with
            | true => cases h
            | false =>
              refine ⟨?_, h⟩
              have halternatives {keyword : String} (hkeyword : keyword ∈ ["oneOf", "anyOf"]) :=
                has_of_stripLayer hkeyword href hmembers hlayer
              simp only [compoundKeywords, List.forall_mem_cons]
              exact ⟨href, hmembers, halternatives (by decide),
                halternatives (by decide), hnot, henum, List.forall_mem_nil _⟩
  · rintro ⟨hnull, hkeys, hstated⟩
    rw [form, hnull, hkeys "$ref" (by decide), stripLayer_eq_none hkeys, hkeys "allOf" (by decide),
      hkeys "not" (by decide), hkeys "enum" (by decide)]
    exact hstated

/-- A schema that counts as absent says what the empty schema says. -/
theorem form_orEmpty (h : r.form schema label = .ok (.primitive name)) :
    r.form schema.orEmpty label = .ok (.primitive name) ∧
      ∀ key, schema.orEmpty.get key = schema.get key := by
  obtain ⟨-, -, hstated⟩ := form_eq_primitive_iff.mp h
  obtain ⟨type, htype, -⟩ := except_bind_eq_ok.mp hstated
  obtain ⟨stated, hmap, -⟩ := except_bind_eq_ok.mp htype
  cases schema with
  | map a es =>
    cases es with
    | nil => exact ⟨h, fun _ => rfl⟩
    | cons => exact ⟨h, fun _ => rfl⟩
  | _ => cases hmap

/-! ### Copies -/

/-- An object of which nothing else is known is that in its copies. -/
theorem objectForm_of_isCopy (hprimitives : r'.primitives = r.primitives)
    (hcopy : IsCopy schema copy) (h : r.objectForm schema = .ok (.primitive name)) :
    r'.objectForm copy = .ok (.primitive name) := by
  obtain ⟨values, hvalues, h⟩ := except_bind_eq_ok.mp h
  obtain ⟨values', hvalues', hsame⟩ := hcopy.get_eq_ok hvalues
  rw [objectForm, hvalues', except_ok_bind, hprimitives]
  cases hsame.top with
  | leaf => exact h
  | list => exact h
  | map a b hentries =>
    cases hentries with
    | nil => exact h
    | cons => cases h

/-- The built-in type for what a copy states is the same. -/
theorem statedForm_of_isCopy (hprimitives : r'.primitives = r.primitives)
    (hcopy : IsCopy schema copy) (h : r.statedForm schema label = .ok (.primitive name))
    (label' : String) :
    r'.statedForm copy label' = .ok (.primitive name) := by
  obtain ⟨type, htype, h⟩ := except_bind_eq_ok.mp h
  obtain ⟨type', htype', htypes⟩ := hcopy.statedType htype label'
  obtain ⟨stated, hstated, -⟩ := except_bind_eq_ok.mp htype
  rw [statedForm, htype', except_ok_bind, ← htypes.isText, ← htypes.isText, ← htypes.isNull,
    ← hcopy.has hstated]
  by_cases harray : type.isText "array" = true
  · rw [if_pos harray] at h
    obtain ⟨items, -, h⟩ := except_bind_eq_ok.mp h
    cases h
  rw [if_neg harray] at h ⊢
  obtain ⟨hasProperties, hhas, h⟩ := except_bind_eq_ok.mp h
  rw [hhas, except_ok_bind]
  split_ifs at h ⊢ with hobject hnull
  · obtain ⟨properties, hproperties, h⟩ := except_bind_eq_ok.mp h
    obtain ⟨properties', hproperties', hsame⟩ := hcopy.get_eq_ok hproperties
    rw [hproperties', except_ok_bind, ← hsame.isTruthy]
    split_ifs at h ⊢
    · cases h
    · exact objectForm_of_isCopy hprimitives hcopy h
  · rw [hprimitives]
    exact h
  · obtain ⟨format, hformat, h⟩ := except_bind_eq_ok.mp h
    obtain ⟨format', hformat', hsame⟩ := hcopy.get_eq_ok hformat
    rw [hformat', except_ok_bind, hprimitives, ← htypes.lookup hsame]
    obtain ⟨found, hfound, h⟩ := except_bind_eq_ok.mp h
    rw [hfound, except_ok_bind]
    cases found with
    | some name => exact h
    | none =>
      obtain ⟨text, -, h⟩ := except_bind_eq_ok.mp h
      cases h

/-- A copy of a primitive schema is primitive and has the same type. -/
theorem form_of_isCopy (hprimitives : r'.primitives = r.primitives) (hcopy : IsCopy schema copy)
    (h : r.form schema label = .ok (.primitive name)) (label' : String) :
    r'.form copy label' = .ok (.primitive name) := by
  obtain ⟨hnull, hkeys, hstated⟩ := form_eq_primitive_iff.mp h
  obtain ⟨type, htype, -⟩ := except_bind_eq_ok.mp hstated
  obtain ⟨stated, hget, -⟩ := except_bind_eq_ok.mp htype
  refine form_eq_primitive_iff.mpr ⟨hcopy.isNull ▸ hnull, fun key hkey => ?_, ?_⟩
  · rw [← hcopy.has hget, hkeys key hkey]
  · exact statedForm_of_isCopy hprimitives hcopy hstated label'

/-! ### Resolution -/

variable {resolve : Node → String → Build TypeExpr} {s t : Session} {hint : String}

/-- A primitive schema has its type at once. -/
theorem resolveStep_primitive (h : r.form schema label = .ok (.primitive name)) (hint : String)
    (s : Session) :
    r.resolveStep resolve schema hint s = (.ok (.primitive name), s) := by
  rw [resolveStep_eq, form_agrees _ h]
  rfl

/-- A resolution takes two steps at least, if it has to. -/
theorem exists_stepBound (r : Resolver) : ∃ fuel, r.stepBound = fuel + 2 := by
  refine Nat.exists_eq_add_of_le' ?_
  calc
    2 ≤ 3 * 3 := by decide
    _ ≤ r.stepBound := Nat.mul_le_mul (Nat.le_add_left 3 _) (Nat.le_add_left 3 _)

/-- A primitive schema has its type whatever the session is. -/
theorem resolve_primitive (h : r.form schema label = .ok (.primitive name)) (hint : String)
    (s : Session) :
    r.resolve schema hint s = (.ok (.primitive name), s) := by
  obtain ⟨fuel, hfuel⟩ := r.exists_stepBound
  rw [resolve, hfuel]
  exact resolveStep_primitive h hint s

/-- A reference to a primitive schema is an alias. -/
theorem target_primitive (hresolve : r.doc.resolve ref = .ok schema)
    (h : r.form schema label = .ok (.primitive name)) : r.target ref = .ok (schema, false) := by
  obtain ⟨-, hkeys, hstated⟩ := form_eq_primitive_iff.mp h
  obtain ⟨type, htype, -⟩ := except_bind_eq_ok.mp hstated
  obtain ⟨stated, hmap, -⟩ := except_bind_eq_ok.mp htype
  obtain ⟨properties, hproperties⟩ : ∃ properties, schema.get "properties" = .ok properties := by
    cases schema with
    | map a es => exact ⟨_, rfl⟩
    | _ => cases hmap
  have hunwrap : r.doc.unwrap schema (referenceName ref) = .ok schema := by
    rw [Document.unwrap, unwrapWithin, stripLayer_eq_none hkeys]
    rfl
  have hdeclares : schema.declaresType = .ok properties.isTruthy := by
    rw [declaresType, hkeys "$ref" (by decide), hasAny, hkeys "allOf" (by decide), hasAny,
      hkeys "enum" (by decide), hproperties]
    rfl
  have htarget : r.target ref = .ok (schema, properties.isTruthy) := by
    rw [target, hresolve, except_ok_bind, hunwrap, except_ok_bind, hdeclares]
    rfl
  cases htruthy : properties.isTruthy with
  | false => rw [htarget, htruthy]
  | true =>
    -- A target that declares a type is a declared type inline too, or a list, or not supported.
    rw [htruthy] at htarget
    by_cases hcontested : schema.Contested
    · obtain ⟨items, hitems⟩ := eq_list_of_contested htarget hcontested h
      cases hitems
    · cases (form_of_named htarget hcontested label).symm.trans h

/-- A resolution of a primitive schema gives its type, or is broken off. -/
theorem Partial.eq_primitive {fuel : Nat} {out : Except Fault TypeExpr × Session} {type : TypeExpr}
    (hp : r.Partial fuel schema hint s out) (h : r.form schema label = .ok (.primitive name))
    (hout : out.1 = .ok type) : type = .primitive name := by
  cases hp with
  | off => cases hout
  | step =>
    rw [resolveStep_primitive h] at hout
    exact (Except.ok.inj hout).symm

end Resolver

/-! ### References to primitive schemas -/

/-- The reference has this type, if it has any. -/
def Session.OnlyType (ref : String) (type : TypeExpr) (s : Session) : Prop :=
  ∀ found, s.references.lookup ref = some found → found = type

theorem Session.OnlyType.cons {ref ref' : String} {type found : TypeExpr} {s : Session}
    (h : s.OnlyType ref type) (hfound : ref' = ref → found = type) :
    Session.OnlyType ref type { s with references := (ref', found) :: s.references } := by
  intro found' hlookup
  rw [lookup_cons_ite] at hlookup
  split_ifs at hlookup with heq
  · exact Option.some.inj hlookup ▸ hfound heq.symm
  · exact h found' hlookup

/-- The session along a step: a reference that has only one type before still has only this type. -/
def Session.KeepsType (ref : String) (type : TypeExpr) (s t : Session) : Prop :=
  s.OnlyType ref type → t.OnlyType ref type

instance (ref : String) (type : TypeExpr) : IsPreorder Session (Session.KeepsType ref type) where
  refl _ := id
  trans _ _ _ h h' := h' ∘ h

namespace Resolver

variable {r : Resolver} {schema : Node} {label name ref : String} {s t : Session} {hint : String}
  (hresolve : r.doc.resolve ref = .ok schema) (hform : r.form schema label = .ok (.primitive name))
include hresolve hform

/-- A reference to a primitive schema gets no other type than that of the schema. -/
theorem Partial.keepsType {fuel : Nat} {n : Node} {out : Except Fault TypeExpr × Session}
    (hp : r.Partial fuel n hint s out) : s.KeepsType ref (.primitive name) out.2 := by
  have htarget := target_primitive hresolve hform
  induction hp with
  | off => exact id
  | step fuel n hint s resolve hp ih =>
    have hmoves (n : Node) (hint : String) :
        Moves (Session.KeepsType ref (.primitive name)) (resolve n hint) :=
      ih n hint
    have hdeclare (n : Node) (name' : String) (s : Session) :=
      declareType_moves (r := r) hmoves (fun d s hs => hs) n name' s
    refine resolveStep_moves hmoves (resolveReference_moves ?_ ?_) (resolveInline_moves ?_) n hint s
    · intro ref' n s hs hn hr
      rw [whileResolving_apply]
      refine ⟨fun h => hmoves _ _ { s with resolving := ref' :: s.resolving } h,
        fun {type t} hrun h => ?_⟩
      refine h.cons fun heq => ?_
      subst heq
      cases htarget.symm.trans hn
      exact (hp schema _ _).eq_primitive hform (congrArg Prod.fst hrun)
    · intro ref' n s hs hn name' t hname h
      refine hdeclare n name' t ?_
      obtain ⟨found, taken, -, happly⟩ := reserveReference_apply ref' s
      cases happly.symm.trans hname
      refine Session.OnlyType.cons (s := { s with taken }) h fun heq => ?_
      subst heq
      cases htarget.symm.trans hn
    · intro n hint s hs name' t hname h
      refine hdeclare n name' t ?_
      cases (reserveInline_apply n hint s).symm.trans hname
      exact h

/-- In sessions that come after the start, the reference has the type of the schema, if it has
any. -/
theorem Later.onlyType {start : Session} (hstart : Session.start r.doc = .ok start)
    (h : r.Later start s) :
    s.OnlyType ref (.primitive name) := by
  have hkeeps : start.KeepsType ref (.primitive name) s :=
    h.moves (fun _ hp => hp.keepsType hresolve hform) (fun e s => id)
      (fun m s => id) fun _ _ _ => id
  refine hkeeps fun found hfound => ?_
  rw [Session.start_eq hstart] at hfound
  cases hfound

/-- A reference to a primitive schema resolves to the type of the schema. -/
theorem resolve_reference_primitive (hs : s.OnlyType ref (.primitive name)) (hr : ref ∉ s.resolving)
    (a b : Address) (hint : String) :
    ∃ t, r.resolve (.map a [(.text "$ref", .leaf b (.text ref))]) hint s =
      (.ok (.primitive name), t) := by
  obtain ⟨fuel, hfuel⟩ := r.exists_stepBound
  have hreference (label : String) :
      r.form (.map a [(.text "$ref", .leaf b (.text ref))]) label = .ok (.reference ref) := rfl
  rw [resolve, hfuel, resolveWithin, resolveStep_eq, hreference]
  change ∃ t, r.resolveReference _ ref s = _
  cases hlookup : s.references.lookup ref with
  | some found =>
    obtain rfl := hs found hlookup
    exact ⟨s, resolveReference_cached hlookup⟩
  | none =>
    rw [resolveReference_alias hlookup (target_primitive hresolve hform) hr, bind_apply,
      whileResolving_apply, resolveWithin, resolveStep_primitive hform]
    exact ⟨_, rfl⟩

end Resolver

end ServiceContract
