import ServiceContract.Proofs.Operation.Parameter
import ServiceContract.Proofs.Schema.Primitive
import ServiceContract.Proofs.Session.Invariant

/-!
# Parameters whose schema is moved into a component

The schema of a parameter may stand at the parameter or, in another document, at the end of a
reference. If it is primitive, the parameter has the same type in both documents, for a reference to
a primitive schema has the type of the schema. But the default of a parameter is read off the schema
that stands at the parameter itself, and references are not followed to find it. So the parameter
loses its default when the schema is moved, and its bindings in both documents are the same exactly
if there was no default.

## Main definitions

* `queryBinding`, `Binding.withoutDefault`: bindings of parameters in the query, with and without a
  default.
* `Extracted`: a parameter in two documents, of which the second one has the schema elsewhere.
* `IsBindingOf`: the binding of one of the parameters that are bound.

## Main results

* `bindParameter_query_eq_ok_iff`: the binding of a parameter in the query.
* `Extracted.bindParameter`: the parameter is bound in the second document if it is in the first
  one.
* `bindParameters_extracted`: the bindings of the parameter in both documents.
-/

namespace ServiceContract

open Build

/-! ### Bindings of parameters in the query -/

/-- The binding of a parameter in the query with a default. -/
def queryBinding (wireName : String) (type : TypeExpr) (required : Bool) (default : Option String)
    (value : Value) : Binding where
  name := nonEmpty (Naming.camel wireName) wireName
  wireName := wireName
  location := .query
  type := type
  required := required
  default := default
  defaultValue := value

/-- The binding without its default. -/
def Binding.withoutDefault (b : Binding) : Binding :=
  { b with default := none, defaultValue := .null }

section Default

variable {wireName : String} {type : TypeExpr} {required : Bool} {default : Option String}
  {value : Value}

theorem withoutDefault_queryBinding :
    (queryBinding wireName type required default value).withoutDefault =
      queryBinding wireName type required none .null := rfl

/-- A binding has nothing to lose exactly if its default is null, which has no text. -/
theorem withoutDefault_queryBinding_eq_iff (h : defaultText value = .ok default) :
    (queryBinding wireName type required default value).withoutDefault =
      queryBinding wireName type required default value ↔ value = .null := by
  constructor
  · exact fun heq => (congrArg Binding.defaultValue heq).symm
  · rintro rfl
    cases h
    rfl

end Default

section Query

variable {r : Resolver} {owner : String} {parameter : Node} {s t : Session} {b : Binding}

/-- A parameter in the query has the type of its schema, and the default that stands at it. -/
theorem bindParameter_query_eq_ok_iff :
    bindParameter r owner .query parameter s = (.ok b, t) ↔
      ∃ wireName schema type required value default,
      parameterName parameter >>= Node.asText = .ok wireName ∧ parameter.get "schema" = .ok schema ∧
        r.resolve schema.orEmpty (owner ++ Naming.pascal wireName) s = (.ok type, t) ∧
          parameter.get "required" = .ok required ∧ schema.orEmpty.get "default" = .ok value ∧
            defaultText value.toValue = .ok default ∧
              b = queryBinding wireName type required.isTruthy default value.toValue := by
  constructor
  · intro h
    obtain ⟨name, hname, h⟩ := lift_bind_eq_ok.mp h
    obtain ⟨wireName, hwire, h⟩ := lift_bind_eq_ok.mp h
    obtain ⟨schema, hschema, h⟩ := lift_bind_eq_ok.mp h
    obtain ⟨type, u, htype, h⟩ := bind_eq_ok.mp h
    obtain ⟨required, hrequired, h⟩ := lift_bind_eq_ok.mp h
    obtain ⟨stated, hstated, h⟩ := lift_bind_eq_ok.mp h
    obtain ⟨value, hvalue, hstated⟩ := except_bind_eq_ok.mp hstated
    obtain ⟨default, hdefault, hstated⟩ := except_bind_eq_ok.mp hstated
    cases hstated
    obtain ⟨rfl, rfl⟩ := pure_eq_ok.mp h
    refine ⟨wireName, schema, type, required, value, default, ?_, hschema, htype, hrequired, hvalue,
      hdefault, rfl⟩
    rw [hname, except_ok_bind, hwire]
  · rintro ⟨wireName, schema, type, required, value, default, hname, hschema, htype,
      hrequired, hvalue, hdefault, rfl⟩
    obtain ⟨name, hname, hwire⟩ := except_bind_eq_ok.mp hname
    refine lift_bind_eq_ok.mpr ⟨name, hname, lift_bind_eq_ok.mpr ⟨wireName, hwire, ?_⟩⟩
    refine lift_bind_eq_ok.mpr ⟨schema, hschema, bind_eq_ok.mpr ⟨type, t, htype, ?_⟩⟩
    refine lift_bind_eq_ok.mpr ⟨required, hrequired, lift_bind_eq_ok.mpr ⟨(default, _), ?_, rfl⟩⟩
    exact except_bind_eq_ok.mpr ⟨value, hvalue, except_bind_eq_ok.mpr ⟨default, hdefault, rfl⟩⟩

end Query

/-! ### Schemas at the end of a reference -/

/-- In the second document the parameter has a reference in place of its schema, and the reference
leads to a copy of the schema. Everything else that the parameter says is a copy of what it says in
the first document. -/
structure Extracted (doc' : Document) (ref : String) (schema parameter parameter' : Node) :
    Prop where
  inline : parameter.get "schema" = .ok schema
  reference : ∃ a b, parameter'.get "schema" = .ok (.map a [(.text "$ref", .leaf b (.text ref))])
  target : ∃ copy, doc'.resolve ref = .ok copy ∧ Node.IsCopy schema copy
  rest : ∀ key, key ≠ "schema" →
    Matches (Option.Rel Node.IsCopy) (parameter.get? key) (parameter'.get? key)

section Extracted

variable {r r' : Resolver} {ref label name owner : String} {schema parameter parameter' : Node}
  {s t s' : Session} {b : Binding}

/-- A parameter whose schema is the value of one of its entries, and stands at the end of a
reference in another document, is such a parameter. -/
theorem extracted_ofValue {doc' : Document} (before : List (Scalar × Value))
    {after : List (Scalar × Value)} {w : Value} (steps steps' : List Step) {place : List Step}
    (hbefore : ∀ e ∈ before, e.1 ≠ .text "schema")
    (hmoved : doc'.resolve ref = .ok (.ofValue place w)) :
    Extracted doc' ref (.ofValue (.key (.text "schema") :: steps) w)
      (.ofValue steps (.map (before ++ (.text "schema", w) :: after)))
      (.ofValue steps' (.map (before ++
        (.text "schema", .map [(.text "$ref", .scalar (.text ref))]) :: after))) where
  inline := Node.get_ofValue_entry hbefore steps w
  reference := ⟨_, _, Node.get_ofValue_entry hbefore steps' _⟩
  target := ⟨_, hmoved, Node.isCopy_ofValue _ _ w⟩
  rest key hkey := by
    rw [Node.get?_ofValue_map, Node.get?_ofValue_map, find?_entry_of_ne hkey,
      find?_entry_of_ne hkey]
    refine .ok ?_
    cases (before ++ after).find? fun e => e.1 == .text key with
    | none => exact .none
    | some e => exact .some (Node.isCopy_ofValue _ _ e.2)

namespace Extracted

variable {doc' : Document} (h : Extracted doc' ref schema parameter parameter')
include h

theorem get?_eq_ok {key : String} {found : Option Node} (hkey : key ≠ "schema")
    (hfound : parameter.get? key = .ok found) :
    ∃ found', parameter'.get? key = .ok found' ∧ Option.Rel Node.IsCopy found found' := by
  have hrest := h.rest key hkey
  rw [hfound] at hrest
  generalize parameter'.get? key = result at hrest
  cases hrest with
  | ok hcopy => exact ⟨_, rfl, hcopy⟩

/-- The parameter has the same name in both documents. -/
theorem wireName {wireName : String}
    (hname : parameterName parameter >>= Node.asText = .ok wireName) :
    parameterName parameter' >>= Node.asText = .ok wireName := by
  obtain ⟨name, hname, htext⟩ := except_bind_eq_ok.mp hname
  obtain ⟨found, hfound, hname⟩ := except_bind_eq_ok.mp hname
  obtain ⟨found', hfound', hcopy⟩ := h.get?_eq_ok (by decide) hfound
  cases hname
  rw [parameterName, hfound', except_ok_bind, ← htext]
  cases hcopy with
  | none => rfl
  | some hcopy => exact hcopy.asText.symm

/-- The parameter is required in both documents or in none. -/
theorem required {required : Node} (hget : parameter.get "required" = .ok required) :
    ∃ required', parameter'.get "required" = .ok required' ∧ required'.isTruthy =
      required.isTruthy := by
  obtain ⟨found, hfound, hget⟩ := except_bind_eq_ok.mp hget
  obtain ⟨found', hfound', hcopy⟩ := h.get?_eq_ok (by decide) hfound
  cases hget
  rw [Node.get, hfound', except_ok_bind]
  refine ⟨_, rfl, ?_⟩
  cases hcopy with
  | none => rfl
  | some hcopy => exact hcopy.isTruthy.symm

end Extracted

/-- If the parameter is bound in the first document, it is bound in the second one too, from every
session in which the reference has no other type and is not in progress. The binding is the same but
for the default, which is lost. -/
theorem Extracted.bindParameter (h : Extracted r'.doc ref schema parameter parameter')
    (hprimitives : r'.primitives = r.primitives)
    (hform : r.form schema label = .ok (.primitive name))
    (hb : ServiceContract.bindParameter r owner .query parameter s = (.ok b, t)) :
    b.type = .primitive name ∧
      (∃ value, schema.get "default" = .ok value ∧ (b.withoutDefault = b ↔ value.toValue = .null)) ∧
        ∀ s', s'.OnlyType ref (.primitive name) → ref ∉ s'.resolving → ∀ owner', ∃ t',
          ServiceContract.bindParameter r' owner' .query parameter' s' =
            (.ok b.withoutDefault, t') := by
  obtain ⟨wireName, schema₁, type, required, value, default, hname, hschema, htype,
    hrequired, hvalue, hdefault, rfl⟩ := bindParameter_query_eq_ok_iff.mp hb
  cases h.inline.symm.trans hschema
  obtain ⟨hempty, hget⟩ := Resolver.form_orEmpty hform
  rw [hget] at hvalue
  rw [Resolver.resolve_primitive hempty] at htype
  cases htype
  refine ⟨rfl, ⟨value, hvalue, withoutDefault_queryBinding_eq_iff hdefault⟩,
    fun s' hs' hr owner' => ?_⟩
  · obtain ⟨a, a', hreference⟩ := h.reference
    obtain ⟨copy, hresolve, hcopy⟩ := h.target
    obtain ⟨required', hrequired', htruthy⟩ := h.required hrequired
    have hcopied := Resolver.form_of_isCopy hprimitives hcopy hform label
    obtain ⟨t', htype'⟩ := Resolver.resolve_reference_primitive hresolve hcopied hs' hr a a'
      (owner' ++ Naming.pascal wireName)
    refine ⟨t', bindParameter_query_eq_ok_iff.mpr ?_⟩
    refine ⟨wireName, _, _, required', .null, none, h.wireName hname, hreference, htype',
      hrequired', rfl, rfl, ?_⟩
    rw [withoutDefault_queryBinding, htruthy]
    rfl

end Extracted

/-! ### Bindings in order -/

section Binds

variable {r : Resolver} {owner : String} {s t : Session}
  {ps : List (Location × ParameterKey × Node)} {p : Location × ParameterKey × Node}
  {bs : List Binding} {b : Binding}

/-- Every parameter has its binding. -/
theorem Binds.exists_mem_zip (h : Binds r owner ps s bs t) (hp : p ∈ ps) :
    ∃ b, (p, b) ∈ ps.zip bs := by
  induction h with
  | nil => exact absurd hp List.not_mem_nil
  | @cons location key parameter ps s t u b bs hb _ ih =>
    rcases List.mem_cons.mp hp with rfl | hp
    · exact ⟨b, List.mem_cons_self⟩
    · exact (ih hp).imp fun _ => List.mem_cons_of_mem _

/-- A binding is made in a session with every invariant that bindings keep. -/
theorem Binds.exists_bindParameter {I : Session → Prop}
    (hI : ∀ location parameter, Keeps I (fun _ => True) (bindParameter r owner location parameter))
    (h : Binds r owner ps s bs t) (hs : I s) (hb : (p, b) ∈ ps.zip bs) :
    ∃ u v, I u ∧ bindParameter r owner p.1 p.2.2 u = (.ok b, v) := by
  induction h with
  | nil => exact absurd hb List.not_mem_nil
  | @cons location key parameter ps s t u b' bs hfirst _ ih =>
    rcases List.mem_cons.mp hb with heq | hb
    · obtain ⟨rfl, rfl⟩ := Prod.mk.inj heq
      exact ⟨s, t, hs, hfirst⟩
    · exact ih (hI location parameter hfirst hs).1 hb

end Binds

/-- Among the bindings of the chosen parameters this is the one of a parameter in the query. -/
def IsBindingOf (chosen : List (ParameterKey × Node)) (bound : List Binding)
    (p : ParameterKey × Node) (b : Binding) : Prop :=
  ((.query, p), b) ∈ (placed chosen boundLocations).zip bound

section Run

variable {r r' : Resolver} {owner owner' ref label name : String}
  {schema parameter parameter' pathItem operation pathItem' operation' : Node} {key : ParameterKey}
  {chosen chosen' : List (ParameterKey × Node)} {start s t : Session}
  {bound : List Binding} {b : Binding}

theorem binds_of_bindParameters
    (hchosen : collectKeyedParameters r.doc pathItem operation = .ok chosen)
    (hrun : bindParameters r pathItem operation owner s = (.ok bound, t)) :
    ∃ events, Binds r owner (placed chosen boundLocations) { s with events } bound t := by
  obtain ⟨keyed, hkeyed, hrun⟩ := lift_bind_eq_ok.mp hrun
  cases hchosen.symm.trans hkeyed
  obtain ⟨⟨⟩, u, hnotes, hrun⟩ := bind_eq_ok.mp hrun
  obtain ⟨events, rfl⟩ := noteSkipped_events hnotes
  exact ⟨events, binds_of_bindLocations hrun⟩

/-- Every chosen parameter in the query has its binding. -/
theorem exists_isBindingOf (hchosen : collectKeyedParameters r.doc pathItem operation = .ok chosen)
    (hrun : bindParameters r pathItem operation owner s = (.ok bound, t))
    (hquery : key.location = "query") (hp : (key, parameter) ∈ chosen) :
    ∃ b, IsBindingOf chosen bound (key, parameter) b := by
  obtain ⟨events, hbinds⟩ := binds_of_bindParameters hchosen hrun
  exact hbinds.exists_mem_zip
    (mem_placed.mpr ⟨List.mem_cons_of_mem _ List.mem_cons_self, hp, hquery⟩)

/-- The binding is made in a session with every invariant that bindings keep and that does not
depend on the events. -/
theorem IsBindingOf.exists_bindParameter {I : Session → Prop}
    (hI : ∀ location parameter, Keeps I (fun _ => True) (bindParameter r owner location parameter))
    (hs : ∀ events, I { s with events })
    (hchosen : collectKeyedParameters r.doc pathItem operation = .ok chosen)
    (hrun : bindParameters r pathItem operation owner s = (.ok bound, t))
    (h : IsBindingOf chosen bound (key, parameter) b) :
    ∃ u v, I u ∧ bindParameter r owner .query parameter u = (.ok b, v) := by
  obtain ⟨events, hbinds⟩ := binds_of_bindParameters hchosen hrun
  exact hbinds.exists_bindParameter hI (hs events) h

/-- Along bindings a reference to a primitive schema gets no other type than that of the schema, and
is not left in progress. -/
theorem bindParameter_keeps_onlyType (hresolve : r.doc.resolve ref = .ok schema)
    (hform : r.form schema label = .ok (.primitive name)) (location : Location) (parameter : Node) :
    Keeps (fun s => s.OnlyType ref (.primitive name) ∧ ref ∉ s.resolving) (fun _ => True)
      (bindParameter r owner location parameter) := by
  rintro s b t hrun ⟨honly, hidle⟩
  have hsteps : Parallel r (fun _ => True) (bindParameter r owner location parameter)
      (bindParameter r owner location parameter) :=
    bindParameter_parallel r.doc.true_hereditary owner location trivial
  have hgrows :=
    hsteps.moves (Resolver.resolveWithin_grows _) Resolver.note_grows Resolver.addMethod_grows s
  have hkeeps := hsteps.moves (R := Session.KeepsType ref (.primitive name)) (fun n hint s =>
    (Resolver.Partial.resolveWithin r.stepBound n hint s).keepsType hresolve hform) (fun e s => id)
      (fun m s => id) s
  rw [hrun] at hgrows hkeeps
  exact ⟨⟨hkeeps honly, hgrows.resolving ▸ hidle⟩, trivial⟩

variable (owner') in
/-- Let a parameter in the query of an operation have a primitive schema, and let this schema be
moved in a second document to where a reference leads. If the parameters of the operation are bound
in the first document, then this parameter has a binding there, of the built-in type of the schema.
In the second document it is always bound as well, when its turn comes, and among the bindings of
the operation it has the same one, but without the default: the bindings are the same exactly if the
schema states no default, or null. -/
theorem bindParameters_extracted (hprimitives : r'.primitives = r.primitives)
    (hextracted : Extracted r'.doc ref schema parameter parameter')
    (hform : r.form schema label = .ok (.primitive name)) (hquery : key.location = "query")
    (hchosen : collectKeyedParameters r.doc pathItem operation = .ok chosen)
    (hp : (key, parameter) ∈ chosen)
    (hrun : bindParameters r pathItem operation owner s = (.ok bound, t))
    (hchosen' : collectKeyedParameters r'.doc pathItem' operation' = .ok chosen')
    (hp' : (key, parameter') ∈ chosen') (hstart : Session.start r'.doc = .ok start) :
    (∃ b, IsBindingOf chosen bound (key, parameter) b) ∧
      ∀ b, IsBindingOf chosen bound (key, parameter) b → b.type = .primitive name ∧
        (∃ value, schema.get "default" = .ok value ∧
          (b.withoutDefault = b ↔ value.toValue = .null)) ∧
          ∀ s', r'.Later start s' → ref ∉ s'.resolving →
            (∃ t', bindParameter r' owner' .query parameter' s' = (.ok b.withoutDefault, t')) ∧
              ∀ bound' t', bindParameters r' pathItem' operation' owner' s' = (.ok bound', t') →
                (∃ b', IsBindingOf chosen' bound' (key, parameter') b') ∧
                  ∀ b', IsBindingOf chosen' bound' (key, parameter') b' →
                    b' = b.withoutDefault := by
  refine ⟨exists_isBindingOf hchosen hrun hquery hp, fun b hb => ?_⟩
  obtain ⟨copy, hresolve, hcopy⟩ := hextracted.target
  have hcopied := Resolver.form_of_isCopy hprimitives hcopy hform label
  obtain ⟨u, v, -, hbind⟩ := hb.exists_bindParameter (I := fun _ => True)
    (fun _ _ _ _ _ _ _ => ⟨trivial, trivial⟩) (fun _ => trivial) hchosen hrun
  obtain ⟨htype, hvalue, hagain⟩ := hextracted.bindParameter hprimitives hform hbind
  refine ⟨htype, hvalue, fun s' hlater hidle => ?_⟩
  have honly := hlater.onlyType hresolve hcopied hstart
  refine ⟨hagain s' honly hidle owner', fun bound' t' hrun' =>
    ⟨exists_isBindingOf hchosen' hrun' hquery hp', ?_⟩⟩
  intro b' hb'
  -- The parameters that are bound before this one leave the reference with the type of the schema,
  -- if any.
  obtain ⟨u', v', ⟨honly', hidle'⟩, hbind'⟩ := hb'.exists_bindParameter
    (bindParameter_keeps_onlyType hresolve hcopied) (fun _ => ⟨honly, hidle⟩) hchosen' hrun'
  obtain ⟨w, hsame⟩ := hagain u' honly' hidle' owner'
  cases hsame.symm.trans hbind'
  rfl

/-- A text with a default. -/
def orderSchema : Value :=
  .map [(.text "type", .scalar (.text "string")), (.text "default", .scalar (.text "name"))]

/-- A reference to the schema of orders. -/
def orderReference : Value :=
  .map [(.text "$ref", .scalar (.text "#/components/schemas/Order"))]

/-- The operation that lists rows in an order, whose schema is given. -/
def orderedListing (schema : Value) : Value :=
  .map [(.text "parameters", .list [.map [(.text "name", .scalar (.text "order")),
    (.text "in", .scalar (.text "query")), (.text "schema", schema)]])]

/-- A document with the operation and some components. -/
def orderedRows (schema : Value) (schemas : List (Scalar × Value)) : Resolver where
  doc := .ofValue (.map [
    (.text "paths", .map [(.text "/rows", .map [(.text "get", orderedListing schema)])]),
    (.text "components", .map [(.text "schemas", .map schemas)])])
  primitives := pythonPrimitives

/-- The path item of the document. -/
def orderedItem (schema : Value) : Node :=
  .ofValue [.key (.text "/rows"), .key (.text "paths")]
    (.map [(.text "get", orderedListing schema)])

/-- The operation of the path item. -/
def orderedOperation (schema : Value) : Node :=
  .ofValue [.key (.text "get"), .key (.text "/rows"), .key (.text "paths")] (orderedListing schema)

/-- The key of the parameter that gives the order. -/
def orderKey : ParameterKey where
  name := .text "order"
  location := "query"

/-- The parameter that gives the order. -/
def orderParameter (schema : Value) : Node :=
  .ofValue [.index 0, .key (.text "parameters"), .key (.text "get"), .key (.text "/rows"),
    .key (.text "paths")]
    (.map [(.text "name", .scalar (.text "order")), (.text "in", .scalar (.text "query")),
      (.text "schema", schema)])

/-- The order is a text in both documents, but only in the first one with a default. -/
theorem bindParameters_extracted_order : ∃ bound bound' t t' start b,
    bindParameters (orderedRows orderSchema []) (orderedItem orderSchema)
      (orderedOperation orderSchema) "ListRows"
      .blank = (.ok bound, t) ∧
    Session.start (orderedRows orderReference [(.text "Order", orderSchema)]).doc = .ok start ∧
    bindParameters (orderedRows orderReference [(.text "Order", orderSchema)])
      (orderedItem orderReference) (orderedOperation orderReference) "ListRows" start =
      (.ok bound', t') ∧
    IsBindingOf [(orderKey, orderParameter orderSchema)] bound
      (orderKey, orderParameter orderSchema) b ∧
    b.type = .primitive "str" ∧ b.withoutDefault ≠ b ∧
    ∀ b', IsBindingOf [(orderKey, orderParameter orderReference)] bound'
      (orderKey, orderParameter orderReference) b' →
      b' = b.withoutDefault := by
  obtain ⟨bound, t, hrun⟩ : ∃ bound t, bindParameters (orderedRows orderSchema [])
    (orderedItem orderSchema)
      (orderedOperation orderSchema) "ListRows" .blank = (.ok bound, t) := ⟨_, _, rfl⟩
  obtain ⟨start, bound', t', hstart, hidle, hrun'⟩ : ∃ start bound' t',
      Session.start (orderedRows orderReference [(.text "Order", orderSchema)]).doc = .ok start ∧
        "#/components/schemas/Order" ∉ start.resolving ∧
        bindParameters (orderedRows orderReference [(.text "Order", orderSchema)])
          (orderedItem orderReference) (orderedOperation orderReference) "ListRows" start =
          (.ok bound', t') :=
    ⟨_, _, _, rfl, List.not_mem_nil, rfl⟩
  have hextracted : Extracted (orderedRows orderReference [(.text "Order", orderSchema)]).doc
      "#/components/schemas/Order" (.ofValue _ orderSchema) (orderParameter orderSchema)
        (orderParameter orderReference) :=
    extracted_ofValue [_, _] _ _ (by decide) rfl
  have hform (steps : List Step) :
      (orderedRows orderSchema []).form (.ofValue steps orderSchema) "" =
      .ok (.primitive "str") := rfl
  have hchosen (schema : Value) (schemas : List (Scalar × Value)) : collectKeyedParameters
      (orderedRows schema schemas).doc (orderedItem schema) (orderedOperation schema) =
        .ok [(orderKey, orderParameter schema)] := rfl
  have hprimitives : (orderedRows orderReference [(.text "Order", orderSchema)]).primitives =
      (orderedRows orderSchema []).primitives := rfl
  obtain ⟨⟨b, hb⟩, hall⟩ := bindParameters_extracted "ListRows" hprimitives hextracted (hform _) rfl
    (hchosen orderSchema []) List.mem_cons_self hrun
    (hchosen orderReference _) List.mem_cons_self hstart
  obtain ⟨htype, ⟨value, hvalue, hsame⟩, hlater⟩ := hall b hb
  obtain ⟨-, hbound⟩ := hlater start .refl hidle
  refine ⟨bound, bound', t, t', start, b, hrun, hstart, hrun', hb, htype, fun heq => ?_,
    (hbound bound' t' hrun').2⟩
  cases hvalue
  cases hsame.mp heq

/-- When the schema of the order is moved into a component, the order loses its default. -/
theorem not_bindParameters_extracted_order : ∃ b start,
    (bindParameters (orderedRows orderSchema []) (orderedItem orderSchema)
      (orderedOperation orderSchema) "ListRows" .blank).1 = .ok [b] ∧ b.default = some "name" ∧
        b.defaultValue = .scalar (.text "name") ∧
      Session.start (orderedRows orderReference [(.text "Order", orderSchema)]).doc = .ok start ∧
      (bindParameters (orderedRows orderReference [(.text "Order", orderSchema)])
        (orderedItem orderReference) (orderedOperation orderReference) "ListRows" start).1 =
          .ok [b.withoutDefault] ∧ b.withoutDefault ≠ b := by
  refine ⟨_, _, rfl, rfl, rfl, rfl, rfl, ?_⟩
  intro heq
  cases congrArg Binding.default heq

end Run

end ServiceContract
