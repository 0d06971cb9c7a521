import ServiceContract.Proofs.Schema.InlineName
import ServiceContract.Proofs.Schema.Termination

/-!
# Schemas that declare a type under a name only

Whether a schema declares a type is decided twice. A schema that a reference leads to declares one
if it has `allOf`, `enum` or properties. For a schema that is used inline the keywords are asked in
order, and `not`, a list of several types and the type of arrays come before properties; `not` also
comes before `enum`. So there are schemas for which the two decisions differ. Those are *contested*,
and no others are.

## Main definitions

* `Node.Contested`: schemas that declare a type under a name, but not inline.

## Main results

* `Resolver.form_of_named`: every other schema that declares a type under a name does so inline.
* `Resolver.form_of_not`, `Resolver.eq_list_of_contested`: a contested schema is not supported
  inline, or it is a list there.
-/

namespace ServiceContract

namespace Node

variable {n schema : Node} {key : String}

/-- Whether a node can be asked for keys does not depend on the key. -/
theorem has_ok {b : Bool} (h : n.has key = .ok b) (key' : String) : ∃ b', n.has key' = .ok b' := by
  cases n with
  | leaf a s =>
    cases s with
    | text t => exact ⟨_, rfl⟩
    | _ => cases h
  | list a items => exact ⟨_, rfl⟩
  | map a es => exact ⟨_, rfl⟩
  | link a rings => cases h

/-- A schema that declares a type has `allOf`, `enum` or properties. -/
theorem keyword_of_declaresType (h : schema.declaresType = .ok true) :
    schema.has "allOf" = .ok true ∨ schema.has "enum" = .ok true ∨
      ∃ properties, schema.get "properties" = .ok properties ∧ properties.isTruthy = true := by
  obtain ⟨isReference, href, h⟩ := except_bind_eq_ok.mp h
  split_ifs at h
  · cases h
  obtain ⟨hasKeyword, hany, h⟩ := except_bind_eq_ok.mp h
  cases hasKeyword with
  | true =>
    obtain ⟨hasMembers, hmembers, hany⟩ := except_bind_eq_ok.mp hany
    cases hasMembers with
    | true => exact .inl hmembers
    | false =>
      obtain ⟨hasEnum, henum, hany⟩ := except_bind_eq_ok.mp hany
      cases hasEnum with
      | true => exact .inr (.inl henum)
      | false => cases hany
  | false =>
    obtain ⟨properties, hproperties, h⟩ := except_bind_eq_ok.mp h
    exact .inr (.inr ⟨properties, hproperties, Except.ok.inj h⟩)

/-- The schema declares a type under a name, but not where it is used inline: it has no `allOf`, and
either `not`, or no `enum` and no other type than that of arrays. -/
structure Contested (schema : Node) : Prop where
  declares : schema.declaresType = .ok true
  members : schema.has "allOf" = .ok false
  keyword : schema.has "not" = .ok true ∨ (schema.has "enum" = .ok false ∧
    ∀ {label type}, schema.statedType label = .ok type → type.isText "array" = true)

end Node

namespace Resolver

variable {r : Resolver} {schema : Node} {ref label : String} {form : SchemaForm}

/-- The form of a target that declares a type goes by its keywords. -/
theorem form_of_target (h : r.target ref = .ok (schema, true)) (label : String) :
    r.form schema label = (do
      if ← schema.has "allOf" then return .inline
      else if ← schema.has "not" then .error (.unsupported label "'not' is not supported")
      else if ← schema.has "enum" then return .inline
      else r.statedForm schema label) := by
  have href := Node.has_ref_of_declaresType (declaresType_of_target h)
  have hnull : schema.isNull ≠ true := by
    rintro hnull
    cases schema with
    | leaf a s =>
      cases s with
      | null => cases href
      | _ => cases hnull
    | _ => cases hnull
  rw [form, if_neg hnull, href, except_ok_bind, if_neg (by decide), stripLayer_of_target h label]
  rfl

/-! ### The two decisions -/

/-- A schema that declares a type under a name and is not contested does so inline too. -/
theorem form_of_named (ht : r.target ref = .ok (schema, true)) (hcontested : ¬ schema.Contested)
    (label : String) : r.form schema label = .ok .inline := by
  have hdeclares := declaresType_of_target ht
  have hhas := Node.has_ok (Node.has_ref_of_declaresType hdeclares)
  rw [form_of_target ht]
  obtain ⟨hasMembers, hmembers⟩ := hhas "allOf"
  rw [hmembers, except_ok_bind]
  cases hasMembers with
  | true => rfl
  | false =>
    obtain ⟨hasNot, hnot⟩ := hhas "not"
    rw [if_neg (by decide), hnot, except_ok_bind]
    cases hasNot with
    | true => exact absurd ⟨hdeclares, hmembers, .inl hnot⟩ hcontested
    | false =>
      obtain ⟨hasEnum, henum⟩ := hhas "enum"
      rw [if_neg (by decide), henum, except_ok_bind]
      cases hasEnum with
      | true => rfl
      | false =>
        -- What is left has properties, and states a type that is not that of arrays.
        obtain ⟨properties, hproperties, htruthy⟩ : ∃ properties,
            schema.get "properties" = .ok properties ∧ properties.isTruthy = true := by
          rcases Node.keyword_of_declaresType hdeclares with hall | hall | hproperties
          · cases hmembers.symm.trans hall
          · cases henum.symm.trans hall
          · exact hproperties
        have hpresent : properties ≠ Node.null := by
          rintro rfl
          cases htruthy
        obtain ⟨label', type, htype, harray⟩ : ∃ label' type,
            schema.statedType label' = .ok type ∧ ¬ type.isText "array" = true := by
          by_contra hnone
          push Not at hnone
          exact hcontested ⟨hdeclares, hmembers, .inr ⟨henum, fun {label type} => hnone label type⟩⟩
        rw [if_neg (by decide), statedForm, Node.statedType_agrees type htype, except_ok_bind,
          if_neg harray, Node.has_of_get hproperties hpresent, except_ok_bind, Bool.or_true,
          if_pos rfl, hproperties, except_ok_bind, if_pos htruthy]
        rfl

/-- A contested schema with `not` is not supported where it is used inline. -/
theorem form_of_not (ht : r.target ref = .ok (schema, true)) (hcontested : schema.Contested)
    (hnot : schema.has "not" = .ok true) (label : String) :
    r.form schema label = .error (.unsupported label "'not' is not supported") := by
  rw [form_of_target ht, hcontested.members, except_ok_bind, if_neg (by decide), hnot,
    except_ok_bind, if_pos rfl]

/-- A contested schema is a list where it is used inline, if it has a form there. -/
theorem eq_list_of_contested (ht : r.target ref = .ok (schema, true))
    (hcontested : schema.Contested) (h : r.form schema label = .ok form) :
    ∃ items, form = .list items := by
  rw [form_of_target ht, hcontested.members, except_ok_bind, if_neg (by decide)] at h
  obtain ⟨hasNot, hnot, h⟩ := except_bind_eq_ok.mp h
  split_ifs at h with hfalse
  rcases hcontested.keyword with hkeyword | ⟨henum, harray⟩
  · cases hkeyword.symm.trans hnot
    exact absurd rfl hfalse
  · rw [henum, except_ok_bind, if_neg (by decide)] at h
    obtain ⟨type, htype, h⟩ := except_bind_eq_ok.mp h
    rw [if_pos (harray htype)] at h
    obtain ⟨items, -, h⟩ := except_bind_eq_ok.mp h
    cases h
    exact ⟨_, rfl⟩

end Resolver

end ServiceContract
