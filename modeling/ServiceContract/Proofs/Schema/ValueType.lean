import ServiceContract.Proofs.Schema.Form
import ServiceContract.Proofs.Session.Invariant

/-!
# Types of values

The absence of a value and the handle for a response are types of a contract, but no types of
values. A schema resolves to one of them only if it is null, and then to the absence of a value:
what stands in for a schema that is absent inside another one is the schema without entries, what a
wrapper stands for is there, and so is what a reference leads to. The types that references have got
are types of values throughout, since they are used again in other places.

## Main definitions

* `TypeExpr.IsValue`, `Declaration.HasValues`: types that hold neither of the two anywhere.
* `Session.Valued`: sessions in which references and declarations have such types.
* `Node.Gives`: what a schema can resolve to.

## Main results

* `Resolver.resolveWithin_keeps_valued`: null resolves to the absence of a value, any other schema
  to a type of values.
-/

namespace ServiceContract

open Build

/-! ### Types -/

/-- A type that is neither the absence of a value nor the handle for a response, and holds neither
of them as the type of its items or values. -/
def TypeExpr.IsValue : TypeExpr → Prop
  | .primitive _ => True
  | .declared _ => True
  | .list item => item.IsValue
  | .map value => value.IsValue
  | .noValue => False
  | .responseChannel => False

/-- The fields of a record have types of values, or the members of an enumeration have one. -/
def Declaration.HasValues : Declaration → Prop
  | .record _ fields _ => ∀ f ∈ fields, f.type.IsValue
  | .enumeration _ valueType _ _ => valueType.IsValue

/-- The references and the declarations of a session have types of values. -/
structure Session.Valued (s : Session) : Prop where
  references : ∀ e ∈ s.references, e.2.IsValue
  declarations : ∀ d ∈ s.declarations, d.HasValues

/-- The type for a schema: the absence of a value if it is null, else a type of values. -/
def Node.Gives (schema : Node) (type : TypeExpr) : Prop :=
  if schema.isNull then type = .noValue else type.IsValue

theorem Node.Gives.isValue {schema : Node} {type : TypeExpr} (h : schema.Gives type)
    (hnull : schema.isNull = false) : type.IsValue := by
  rwa [Gives, if_neg (ne_true_of_eq_false hnull)] at h

theorem Node.gives_of_isValue {schema : Node} {type : TypeExpr} (hnull : schema.isNull = false)
    (h : type.IsValue) : schema.Gives type := by
  rwa [Gives, if_neg (ne_true_of_eq_false hnull)]

theorem TypeExpr.isValue_declared (name : String) : (TypeExpr.declared name).IsValue := trivial

theorem TypeExpr.IsValue.ne_noValue {type : TypeExpr} (h : type.IsValue) : type ≠ .noValue := by
  rintro rfl
  exact h

/-! ### Nodes that are not null -/

namespace Node

theorem isNull_of_has {n : Node} {key : String} {b : Bool} (h : n.has key = .ok b) :
    n.isNull = false := by
  cases n with
  | leaf a s => cases s <;> first | rfl | cases h
  | _ => rfl

/-- What stands for a value that counts as absent is not null. -/
theorem isNull_orEmpty (n : Node) : n.orEmpty.isNull = false := by
  cases n with
  | leaf a s =>
    rw [orEmpty]
    split_ifs with h
    · cases s <;> first | rfl | cases h
    · rfl
  | _ =>
    rw [orEmpty]
    split_ifs <;> rfl

/-- What is left when all wrappers are taken away is not null. -/
theorem isNull_of_unwrapWithin {label : String} {fuel : ℕ} {schema inner : Node}
    (h : schema.unwrapWithin label fuel = .ok inner) : inner.isNull = false := by
  induction fuel generalizing schema with
  | zero => cases h
  | succ fuel ih =>
    obtain ⟨layer, hlayer, h⟩ := except_bind_eq_ok.mp h
    cases layer with
    | some next => exact ih h
    | none =>
      cases h
      obtain ⟨isReference, href, -⟩ := except_bind_eq_ok.mp hlayer
      exact isNull_of_has href

end Node

/-! ### Sessions -/

namespace Session.Valued

variable {s t : Session}

/-- Other parts of the session do not matter. -/
theorem congr (hs : s.Valued) (href : t.references = s.references)
    (hd : t.declarations = s.declarations) :
    t.Valued where
  references := href ▸ hs.references
  declarations := hd ▸ hs.declarations

theorem reference (hs : s.Valued) {ref : String} {type : TypeExpr} (h : type.IsValue)
    (href : t.references = (ref, type) :: s.references) (hd : t.declarations = s.declarations) :
    t.Valued where
  references := by
    rw [href]
    exact List.forall_mem_cons.mpr ⟨h, hs.references⟩
  declarations := hd ▸ hs.declarations

end Session.Valued

theorem declare_keeps_valued {d : Declaration} (h : d.HasValues) :
    Keeps Session.Valued (fun _ => True) (declare d) := by
  rintro s _ _ ⟨⟩ hs
  refine ⟨⟨hs.references, fun e he => ?_⟩, trivial⟩
  rcases List.mem_append.mp he with he | he
  · exact hs.declarations e he
  · exact List.mem_singleton.mp he ▸ h

/-! ### Resolution -/

namespace Resolver

variable {r : Resolver} {resolve : Node → String → Build TypeExpr}

open Session (Valued)

/-- The values of an enumeration have a built-in type. -/
theorem isValue_of_blueprint {schema : Node} {name : String} {valueType : TypeExpr}
    {members : List (String × Value)} {description : String}
    (h : r.blueprint schema name = .ok (.enumeration valueType members description)) :
    valueType.IsValue := by
  obtain ⟨value, -, h⟩ := except_bind_eq_ok.mp h
  obtain ⟨text, -, h⟩ := except_bind_eq_ok.mp h
  obtain ⟨hasEnum, -, h⟩ := except_bind_eq_ok.mp h
  cases hasEnum with
  | true =>
    obtain ⟨found, hfound, h⟩ := except_bind_eq_ok.mp h
    obtain ⟨enum, -, h⟩ := except_bind_eq_ok.mp h
    obtain ⟨items, -, h⟩ := except_bind_eq_ok.mp h
    obtain ⟨members, -, h⟩ := except_bind_eq_ok.mp h
    obtain ⟨stated, -, hfound⟩ := except_bind_eq_ok.mp hfound
    obtain ⟨format, -, hfound⟩ := except_bind_eq_ok.mp hfound
    obtain ⟨builtIn, -, hfound⟩ := except_bind_eq_ok.mp hfound
    cases hfound
    cases h
    trivial
  | false =>
    obtain ⟨shape, -, h⟩ := except_bind_eq_ok.mp h
    obtain ⟨names, -, h⟩ := except_bind_eq_ok.mp h
    cases h

section Step

variable (hf : ∀ n hint, Keeps Valued n.Gives (resolve n hint))
include hf

theorem resolveFields_keeps_valued (owner : String) (required : List Scalar)
    (properties : List (Scalar × Node)) :
    Keeps Valued (fun fields => ∀ f ∈ fields, f.type.IsValue)
      (resolveFields resolve owner required properties) := by
  induction properties with
  | nil => exact .pure fun _ h => absurd h List.not_mem_nil
  | cons e properties ih =>
    refine .lift_bind fun wireName _ => .bind (hf _ _) fun type htype => ?_
    refine .lift_bind fun value _ => .lift_bind fun description _ =>
      .bind ih fun fields hfields => ?_
    exact .pure (List.forall_mem_cons.mpr ⟨htype.isValue e.2.isNull_orEmpty, hfields⟩)

theorem declareType_keeps_valued (schema : Node) (name : String) :
    Keeps Valued (fun _ => True) (r.declareType resolve schema name) := by
  rw [declareType_eq]
  refine .lift_bind fun blueprint hblueprint => ?_
  cases blueprint with
  | enumeration valueType members description =>
    exact declare_keeps_valued (isValue_of_blueprint hblueprint)
  | record required properties description =>
    exact .bind (resolveFields_keeps_valued hf name required properties) fun fields hfields =>
      declare_keeps_valued hfields

theorem resolveReference_keeps_valued (ref : String) :
    Keeps Valued TypeExpr.IsValue (r.resolveReference resolve ref) := by
  intro s type t h hs
  cases referenceOutcome h with
  | cached href => exact ⟨hs, hs.references _ (mem_of_lookup href)⟩
  | @inherited schema _ u href ht hr hrun =>
    obtain ⟨isReference, hhas, -⟩ := except_bind_eq_ok.mp (declaresType_of_target ht)
    obtain ⟨hu, htype⟩ := hf _ _ hrun (hs.congr rfl rfl)
    have hvalue := htype.isValue (Node.isNull_of_has hhas)
    exact ⟨hu.reference hvalue rfl rfl, hvalue⟩
  | named href ht hname hdeclare =>
    obtain ⟨hreferences, -⟩ := reserveReference_eq_ok hname
    have hnamed :=
      hs.reference (TypeExpr.isValue_declared _) hreferences (declarations_reserveReference hname)
    exact ⟨(declareType_keeps_valued hf _ _ hdeclare hnamed).1, trivial⟩

theorem resolveInline_keeps_valued (schema : Node) (hint : String) :
    Keeps Valued TypeExpr.IsValue (r.resolveInline resolve schema hint) := by
  intro s type t h hs
  cases inlineOutcome h with
  | cached => exact ⟨hs, trivial⟩
  | new _ hname hdeclare =>
    have hnamed := hs.congr (reserveInline_eq_ok hname).1 (declarations_reserveInline hname)
    exact ⟨(declareType_keeps_valued hf _ _ hdeclare hnamed).1, trivial⟩

/-- One step of resolution gives what the schema asks for. -/
theorem resolveStep_keeps_valued (schema : Node) (hint : String) :
    Keeps Valued schema.Gives (r.resolveStep resolve schema hint) := by
  by_cases hnull : schema.isNull = true
  · rw [resolveStep, if_pos hnull]
    refine .pure ?_
    rw [Node.Gives, if_pos hnull]
  have hvalue {m : Build TypeExpr} (h : Keeps Valued TypeExpr.IsValue m) :
      Keeps Valued schema.Gives m :=
    h.mono fun _ => Node.gives_of_isValue (eq_false_of_ne_true hnull)
  rw [resolveStep_eq]
  refine .lift_bind fun form hform => hvalue ?_
  cases formReason hform with
  | absent h => exact absurd h hnull
  | reference => exact resolveReference_keeps_valued hf _
  | @wrapper _ inner _ hunwrap =>
    exact (hf inner hint).mono fun _ h => h.isValue (Node.isNull_of_unwrapWithin hunwrap)
  | inline => exact resolveInline_keeps_valued hf schema hint
  | @list _ items =>
    exact .bind (hf _ _) fun item h => .pure (h.isValue items.isNull_orEmpty)
  | map => exact .bind (hf _ _) fun value h => .pure (h.isValue rfl)
  | primitive name => exact .pure trivial

end Step

/-- The type of a null schema is the absence of a value, and the type of any other one a type of
values. -/
theorem resolveWithin_keeps_valued (fuel : ℕ) (schema : Node) (hint : String) :
    Keeps Valued schema.Gives (r.resolveWithin fuel schema hint) := by
  induction fuel generalizing schema hint with
  | zero => exact .fail _
  | succ fuel ih => exact resolveStep_keeps_valued ih schema hint

end Resolver

end ServiceContract
