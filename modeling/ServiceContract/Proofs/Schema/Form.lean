import ServiceContract.Proofs.Session.Run
import ServiceContract.Schema.Resolve

/-!
# Forms of schemas

One step of resolution first reads what a schema asks for and then does it. What it asks for is the
*form* of the schema; it does not depend on the session. The same holds for what a reference leads
to, its *target*, and for what the declaration of a schema is made from, its *blueprint*.

## Main definitions

* `SchemaForm`, `SchemaForm.schemas`, `Resolver.form`, `Resolver.resolveForm`.
* `Resolver.FormReason`: what a schema says for which it has a form.
* `Node.ofReference`.
* `Resolver.target`.
* `Resolver.ReferenceOutcome`, `Resolver.InlineOutcome`: how references and inline schemas get
  types.
* `Blueprint`, `Resolver.blueprint`, `Resolver.declareBlueprint`.

## Main results

* `Resolver.formReason`: every form has its reason.
* `Resolver.resolveStep_eq`: a step of resolution reads the form and then acts on it.
* `Resolver.declareType_eq`: a declaration reads the blueprint and then acts on it.
* `Resolver.resolveReference_named`, `Resolver.resolveReference_alias`,
  `Resolver.resolveReference_circular`: what is done for a reference that has no type yet.
* `Resolver.referenceOutcome`, `Resolver.inlineOutcome`: what has been done when there is a type.
-/

namespace ServiceContract

/-- What a schema asks for. -/
inductive SchemaForm where
  /-- There is no schema. -/
  | absent
  | reference (ref : String)
  /-- The schema stands for another one. -/
  | wrapper (inner : Node)
  /-- The schema declares a type. -/
  | inline
  | list (items : Node)
  | map (values : Node)
  | primitive (name : String)

/-- The other schemas that a form speaks of. -/
def SchemaForm.schemas : SchemaForm → List Node
  | .wrapper inner => [inner]
  | .list items => [items]
  | .map values => [values]
  | _ => []

/-- What a declaration is made from, the types of its fields apart. -/
inductive Blueprint where
  | enumeration (valueType : TypeExpr) (members : List (String × Value)) (description : String)
  | record (required : List Scalar) (properties : List (Scalar × Node)) (description : String)

/-- The schema that refers to another one. -/
def Node.ofReference (ref : String) : Node :=
  .map .nowhere [(.text "$ref", .leaf .nowhere (.text ref))]

namespace Resolver

variable (r : Resolver)

/-! ### Forms -/

/-- The form of an object without properties. -/
def objectForm (schema : Node) : Except Fault SchemaForm := do
  match ← schema.get "additionalProperties" with
  | .map address (entry :: entries) => return .map (.map address (entry :: entries))
  | _ => return .primitive r.primitives.anyObject

/-- The form of a schema that is no reference, no wrapper, and has neither `allOf` nor `enum`. -/
def statedForm (schema : Node) (label : String) : Except Fault SchemaForm := do
  let type ← schema.statedType label
  if type.isText "array" then return .list (← schema.get "items").orEmpty
  else if type.isText "object" || (← schema.has "properties") then
    if (← schema.get "properties").isTruthy then return .inline else r.objectForm schema
  else if type.isNull then return .primitive r.primitives.anyType
  else
    match ← r.primitives.lookup type (← schema.get "format") with
    | some name => return .primitive name
    | none => .error (.unsupported label ("unknown type " ++ (← type.toValue.literalText)))

/-- The form of a schema. The label names the schema in faults. -/
def form (schema : Node) (label : String) : Except Fault SchemaForm := do
  if schema.isNull then return .absent
  else if ← schema.has "$ref" then return .reference (← (← schema.get "$ref").asText)
  else
    match ← schema.stripLayer label with
    | some inner => return .wrapper (← r.doc.unwrap inner label)
    | none =>
      if ← schema.has "allOf" then return .inline
      else if ← schema.has "not" then .error (.unsupported label "'not' is not supported")
      else if ← schema.has "enum" then return .inline
      else r.statedForm schema label

/-- The type for a form. -/
def resolveForm (resolve : Node → String → Build TypeExpr) (schema : Node) (hint : String) :
    SchemaForm → Build TypeExpr
  | .absent => return .noValue
  | .reference ref => r.resolveReference resolve ref
  | .wrapper inner => resolve inner hint
  | .inline => r.resolveInline resolve schema hint
  | .list items => return .list (← resolve items (extendHint hint "Item"))
  | .map values => return .map (← resolve values (extendHint hint "Value"))
  | .primitive name => return .primitive name

variable {r} {resolve : Node → String → Build TypeExpr}

variable (r) in
/-- What a schema says for which it has a form. -/
inductive FormReason (schema : Node) (label : String) : SchemaForm → Prop
  | absent (h : schema.isNull = true) : FormReason schema label .absent
  | reference {value : Node} {ref : String} (hhas : schema.has "$ref" = .ok true)
    (hget : schema.get "$ref" = .ok value) (htext : value.asText = .ok ref) :
    FormReason schema label (.reference ref)
  | wrapper {layer inner : Node} (hlayer : schema.stripLayer label = .ok (some layer))
    (hunwrap : r.doc.unwrap layer label = .ok inner) : FormReason schema label (.wrapper inner)
  | inline (href : schema.has "$ref" = .ok false) (hlayer : schema.stripLayer label = .ok none)
    (h : schema.has "allOf" = .ok true ∨ schema.has "enum" = .ok true ∨
      ∃ properties, schema.get "properties" = .ok properties ∧ properties.isTruthy = true) :
    FormReason schema label .inline
  | list {type items : Node} (htype : schema.statedType label = .ok type)
    (harray : type.isText "array" = true) (hitems : schema.get "items" = .ok items) :
    FormReason schema label (.list items.orEmpty)
  | map {a : Address} {e : Scalar × Node} {es : List (Scalar × Node)}
    (h : schema.get "additionalProperties" = .ok (.map a (e :: es))) :
    FormReason schema label (.map (.map a (e :: es)))
  | primitive (name : String) : FormReason schema label (.primitive name)

theorem formReason_of_statedForm {schema : Node} {label : String} {form : SchemaForm}
    (href : schema.has "$ref" = .ok false) (hlayer : schema.stripLayer label = .ok none)
    (h : r.statedForm schema label = .ok form) : r.FormReason schema label form := by
  obtain ⟨type, htype, h⟩ := except_bind_eq_ok.mp h
  by_cases harray : type.isText "array" = true
  · rw [if_pos harray] at h
    obtain ⟨items, hitems, h⟩ := except_bind_eq_ok.mp h
    cases h
    exact .list htype harray hitems
  rw [if_neg harray] at h
  obtain ⟨hasProperties, -, h⟩ := except_bind_eq_ok.mp h
  split_ifs at h
  · obtain ⟨properties, hproperties, h⟩ := except_bind_eq_ok.mp h
    split_ifs at h with htruthy
    · cases h
      exact .inline href hlayer (.inr (.inr ⟨properties, hproperties, htruthy⟩))
    · obtain ⟨values, hvalues, h⟩ := except_bind_eq_ok.mp h
      split at h
      · cases h
        exact .map hvalues
      · cases h
        exact .primitive _
  · cases h
    exact .primitive _
  · obtain ⟨format, -, h⟩ := except_bind_eq_ok.mp h
    obtain ⟨found, -, h⟩ := except_bind_eq_ok.mp h
    cases found with
    | some name =>
      cases h
      exact .primitive name
    | none =>
      obtain ⟨text, -, h⟩ := except_bind_eq_ok.mp h
      cases h

/-- Every form has its reason. -/
theorem formReason {schema : Node} {label : String} {form : SchemaForm}
    (h : r.form schema label = .ok form) : r.FormReason schema label form := by
  unfold Resolver.form at h
  split_ifs at h with hnull
  · cases h
    exact .absent hnull
  obtain ⟨isReference, href, h⟩ := except_bind_eq_ok.mp h
  cases isReference with
  | true =>
    obtain ⟨value, hvalue, h⟩ := except_bind_eq_ok.mp h
    obtain ⟨ref, htext, h⟩ := except_bind_eq_ok.mp h
    cases h
    exact .reference href hvalue htext
  | false =>
    obtain ⟨layer, hlayer, h⟩ := except_bind_eq_ok.mp h
    cases layer with
    | some inner =>
      obtain ⟨inner', hinner, h⟩ := except_bind_eq_ok.mp h
      cases h
      exact .wrapper hlayer hinner
    | none =>
      obtain ⟨hasMembers, hmembers, h⟩ := except_bind_eq_ok.mp h
      split_ifs at h with hall
      · cases h
        exact .inline href hlayer (.inl (hall ▸ hmembers))
      obtain ⟨hasNot, -, h⟩ := except_bind_eq_ok.mp h
      split_ifs at h
      obtain ⟨hasEnum, henum, h⟩ := except_bind_eq_ok.mp h
      split_ifs at h with hall
      · cases h
        exact .inline href hlayer (.inr (.inl (hall ▸ henum)))
      · exact formReason_of_statedForm href hlayer h

theorem resolveObject_eq (schema : Node) (hint : String) :
    r.resolveObject resolve schema hint =
      (liftM (r.objectForm schema) >>= r.resolveForm resolve schema hint) := by
  simp only [resolveObject, objectForm, Build.lift_bind, bind_assoc]
  refine bind_congr fun values => ?_
  rcases values with _ | _ | ⟨_, _ | _⟩ | _ <;> rfl

theorem resolveStated_eq (schema : Node) (hint label : String) :
    r.resolveStated resolve schema hint label =
      (liftM (r.statedForm schema label) >>= r.resolveForm resolve schema hint) := by
  simp only [resolveStated, statedForm, Build.lift_bind, Build.lift_ite, Build.lift_pure,
    Build.ite_bind, bind_assoc, pure_bind, resolveForm, ← resolveObject_eq]
  refine bind_congr fun type => ?_
  by_cases ha : type.isText "array" = true
  · rw [if_pos ha, if_pos ha]
  · rw [if_neg ha, if_neg ha]
    refine bind_congr fun properties => ?_
    congr 1
    congr 1
    refine bind_congr fun format => bind_congr fun found => ?_
    cases found with
    | some name => rfl
    | none =>
      simp only [Build.lift_bind, bind_assoc]
      rfl

/-- A step of resolution reads the form of the schema and then acts on it. -/
theorem resolveStep_eq (schema : Node) (hint : String) :
    r.resolveStep resolve schema hint =
      (liftM (r.form schema (Build.nonEmpty hint "<inline>")) >>=
        r.resolveForm resolve schema hint) := by
  simp only [resolveStep, form, Build.lift_bind, Build.lift_ite, Build.lift_pure,
    Build.ite_bind, bind_assoc, pure_bind]
  split_ifs
  · rfl
  · refine bind_congr fun isReference => ?_
    split_ifs
    · rfl
    · refine bind_congr fun layer => ?_
      cases layer with
      | some inner =>
        simp only [Build.lift_bind, Build.lift_pure, bind_assoc, pure_bind]
        rfl
      | none =>
        simp only [Build.lift_bind, Build.lift_ite, Build.lift_pure, Build.ite_bind, bind_assoc,
          pure_bind, ← resolveStated_eq]
        rfl

/-! ### References -/

variable (r) in
/-- The schema that a reference leads to, with its wrappers taken away, and whether it declares a
type. -/
def target (ref : String) : Except Fault (Node × Bool) := do
  let schema ← r.doc.unwrap (← r.doc.resolve ref) (referenceName ref)
  return (schema, ← schema.declaresType)

variable {ref : String} {schema : Node} {s : Session}

theorem declaresType_of_target {declares : Bool} (h : r.target ref = .ok (schema, declares)) :
    schema.declaresType = .ok declares := by
  obtain ⟨node, -, h⟩ := except_bind_eq_ok.mp h
  obtain ⟨inner, -, h⟩ := except_bind_eq_ok.mp h
  obtain ⟨declares, hdeclares, h⟩ := except_bind_eq_ok.mp h
  cases h
  exact hdeclares

/-- A reference that has a type keeps it. -/
theorem resolveReference_cached {type : TypeExpr} (h : s.references.lookup ref = some type) :
    r.resolveReference resolve ref s = (.ok type, s) := by
  simp [resolveReference, Build.reference?, h]

/-- What is done for a reference without a type goes by its target. -/
theorem resolveReference_eq (h : s.references.lookup ref = none) :
    r.resolveReference resolve ref s =
      (do
        let (schema, declares) ← r.target ref
        if declares then
          let name ← Build.reserveReference ref
          r.declareType resolve schema name
          return .declared name
        else if (← Build.read Session.resolving).contains ref then
          Build.fail (.unsupported (referenceName ref) "alias refers to itself")
        else
          let type ← Build.whileResolving ref
            (resolve schema (Naming.pascal (referenceName ref)))
          Build.remember ref type
          return type : Build TypeExpr) s := by
  rw [resolveReference, Build.bind_apply]
  simp only [Build.reference?, Build.read_apply, h]
  simp only [target, Build.lift_bind, Build.lift_pure, bind_assoc, pure_bind]

/-- A reference whose target declares a type gets its name before the type is declared. -/
theorem resolveReference_named (h : s.references.lookup ref = none)
    (ht : r.target ref = .ok (schema, true)) :
    r.resolveReference resolve ref s =
      (do
        let name ← Build.reserveReference ref
        r.declareType resolve schema name
        return .declared name : Build TypeExpr) s := by
  rw [resolveReference_eq h, ht]
  rfl

/-- A reference to any other schema has the type of that schema. -/
theorem resolveReference_alias (h : s.references.lookup ref = none)
    (ht : r.target ref = .ok (schema, false)) (hr : ref ∉ s.resolving) :
    r.resolveReference resolve ref s =
      (do
        let type ← Build.whileResolving ref
          (resolve schema (Naming.pascal (referenceName ref)))
        Build.remember ref type
        return type : Build TypeExpr) s := by
  rw [resolveReference_eq h, ht]
  simp [hr]

/-- An alias in progress must not be met again. -/
theorem resolveReference_circular (h : s.references.lookup ref = none)
    (ht : r.target ref = .ok (schema, false)) (hr : ref ∈ s.resolving) :
    r.resolveReference resolve ref s =
      (.error (.unsupported (referenceName ref) "alias refers to itself"), s) := by
  rw [resolveReference_eq h, ht]
  simp [hr]

theorem resolveReference_of_error {fault : Fault} (h : s.references.lookup ref = none)
    (ht : r.target ref = .error fault) :
    r.resolveReference resolve ref s = (.error fault, s) := by
  rw [resolveReference_eq h, ht]
  rfl

variable (r resolve) in
/-- How a reference gets its type: it has one already, it is an alias and gets that of its target,
or it gets a name and its target is declared. -/
inductive ReferenceOutcome (ref : String) (s : Session) : TypeExpr → Session → Prop
  | cached {type : TypeExpr} (hs : s.references.lookup ref = some type) :
    ReferenceOutcome ref s type s
  | inherited {schema : Node} {type : TypeExpr} {u : Session} (hs : s.references.lookup ref = none)
    (ht : r.target ref = .ok (schema, false)) (hr : ref ∉ s.resolving)
    (hrun : resolve schema (Naming.pascal (referenceName ref))
      { s with resolving := ref :: s.resolving } = (.ok type, u)) :
    ReferenceOutcome ref s type
      { u with resolving := u.resolving.erase ref, references := (ref, type) :: u.references }
  | named {schema : Node} {name : String} {u t : Session} (hs : s.references.lookup ref = none)
    (ht : r.target ref = .ok (schema, true)) (hname : Build.reserveReference ref s = (.ok name, u))
    (hdeclare : r.declareType resolve schema name u = (.ok (), t)) :
    ReferenceOutcome ref s (.declared name) t

theorem referenceOutcome {type : TypeExpr} {t : Session}
    (h : r.resolveReference resolve ref s = (.ok type, t)) :
    r.ReferenceOutcome resolve ref s type t := by
  cases hs : s.references.lookup ref with
  | some found =>
    rw [resolveReference_cached hs] at h
    cases h
    exact .cached hs
  | none =>
    rcases ht : r.target ref with fault | ⟨schema, _ | _⟩
    · rw [resolveReference_of_error hs ht] at h
      cases h
    · by_cases hr : ref ∈ s.resolving
      · rw [resolveReference_circular hs ht hr] at h
        cases h
      · rw [resolveReference_alias hs ht hr, Build.bind_eq_ok] at h
        obtain ⟨found, s₁, hres, h⟩ := h
        obtain ⟨⟨⟩, s₂, hremember, h⟩ := Build.bind_eq_ok.mp h
        obtain ⟨rfl, rfl⟩ := Build.pure_eq_ok.mp h
        rw [Build.whileResolving_apply] at hres
        obtain ⟨hrun, rfl⟩ := Prod.mk.inj hres
        cases hremember
        exact .inherited hs ht hr (Prod.ext hrun rfl)
    · rw [resolveReference_named hs ht, Build.bind_eq_ok] at h
      obtain ⟨name, u, hname, h⟩ := h
      obtain ⟨⟨⟩, s₂, hdeclare, h⟩ := Build.bind_eq_ok.mp h
      obtain ⟨rfl, rfl⟩ := Build.pure_eq_ok.mp h
      exact .named hs ht hname hdeclare

/-! ### Inline schemas -/

/-- An inline schema that has a name keeps it. -/
theorem resolveInline_cached {name hint : String}
    (h : s.inlines.lookup schema.address = some name) :
    r.resolveInline resolve schema hint s = (.ok (.declared name), s) := by
  simp [resolveInline, Build.inline?, h]

/-- An inline schema without a name gets one before its type is declared. -/
theorem resolveInline_new {hint : String} (h : s.inlines.lookup schema.address = none) :
    r.resolveInline resolve schema hint s =
      (do
        let name ← Build.reserveInline schema (Build.nonEmpty hint "Inline")
        r.declareType resolve schema name
        return .declared name : Build TypeExpr) s := by
  simp only [resolveInline, Build.inline?, Build.bind_apply, Build.read_apply, h]

variable (r resolve) in
/-- How an inline schema that declares a type gets it: it has a name already, or it gets one and is
declared. -/
inductive InlineOutcome (schema : Node) (hint : String) (s : Session) : TypeExpr → Session → Prop
  | cached {name : String} (hs : s.inlines.lookup schema.address = some name) :
    InlineOutcome schema hint s (.declared name) s
  | new {name : String} {u t : Session} (hs : s.inlines.lookup schema.address = none)
    (hname : Build.reserveInline schema (Build.nonEmpty hint "Inline") s = (.ok name, u))
    (hdeclare : r.declareType resolve schema name u = (.ok (), t)) :
    InlineOutcome schema hint s (.declared name) t

theorem inlineOutcome {hint : String} {type : TypeExpr} {t : Session}
    (h : r.resolveInline resolve schema hint s = (.ok type, t)) :
    r.InlineOutcome resolve schema hint s type t := by
  cases hs : s.inlines.lookup schema.address with
  | some name =>
    rw [resolveInline_cached hs] at h
    cases h
    exact .cached hs
  | none =>
    rw [resolveInline_new hs, Build.bind_eq_ok] at h
    obtain ⟨name, u, hname, h⟩ := h
    obtain ⟨⟨⟩, s₂, hdeclare, h⟩ := Build.bind_eq_ok.mp h
    obtain ⟨rfl, rfl⟩ := Build.pure_eq_ok.mp h
    exact .new hs hname hdeclare

/-! ### Declarations -/

variable (r) in
/-- What the declaration of a schema is made from. The name stands for the schema in faults. -/
def blueprint (schema : Node) (name : String) : Except Fault Blueprint := do
  let description ← (← schema.get "description").trimmedText
  if ← schema.has "enum" then
    let valueType ← r.enumValueType schema
    let members ← enumMembers ((← (← schema.get "enum").items).map Node.toValue)
    return .enumeration valueType members description
  else
    let shape ← r.shapeOf schema name
    return .record (← requiredNames shape.required) shape.properties description

/-- Declares a type under a name. -/
def declareBlueprint (resolve : Node → String → Build TypeExpr) (name : String) :
    Blueprint → Build Unit
  | .enumeration valueType members description =>
    Build.declare (.enumeration name valueType members description)
  | .record required properties description => do
    let fields ← resolveFields resolve name required properties
    Build.declare (.record name fields description)

/-- A declaration reads the blueprint and then acts on it. -/
theorem declareType_eq (schema : Node) (name : String) :
    r.declareType resolve schema name =
      (liftM (r.blueprint schema name) >>= declareBlueprint resolve name) := by
  simp only [declareType, blueprint, Build.lift_bind, Build.lift_ite, Build.lift_pure,
    Build.ite_bind, bind_assoc, pure_bind, declareBlueprint]

/-- The fields of a record are for the properties of its shape, by its required names. -/
theorem shapeOf_of_blueprint {name description : String} {required : List Scalar}
    {properties : List (Scalar × Node)}
    (h : r.blueprint schema name = .ok (.record required properties description)) :
    ∃ shape, r.shapeOf schema name = .ok shape ∧ requiredNames shape.required = .ok required ∧
      shape.properties = properties := by
  obtain ⟨value, -, h⟩ := except_bind_eq_ok.mp h
  obtain ⟨text, -, h⟩ := except_bind_eq_ok.mp h
  obtain ⟨hasEnum, -, h⟩ := except_bind_eq_ok.mp h
  cases hasEnum with
  | true =>
    obtain ⟨valueType, -, h⟩ := except_bind_eq_ok.mp h
    obtain ⟨value, -, h⟩ := except_bind_eq_ok.mp h
    obtain ⟨items, -, h⟩ := except_bind_eq_ok.mp h
    obtain ⟨members, -, h⟩ := except_bind_eq_ok.mp h
    cases h
  | false =>
    obtain ⟨shape, hshape, h⟩ := except_bind_eq_ok.mp h
    obtain ⟨names, hnames, h⟩ := except_bind_eq_ok.mp h
    cases h
    exact ⟨shape, hshape, hnames, rfl⟩

end Resolver

end ServiceContract
