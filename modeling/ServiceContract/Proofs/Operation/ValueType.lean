import ServiceContract.Proofs.Operation.ParameterName
import ServiceContract.Proofs.Schema.ValueType

/-!
# Types of values in methods

The result of a method is the absence of a value exactly if the success response has no media type,
or the first media type has no schema or a null one. A method has types of values everywhere else,
apart from the handle for the response, which no parameter of a document can be.

## Main definitions

* `LacksResult`: operations without a schema for their result.
* `Binding.ValueTyped`: parameters with types of values.
* `Method.ValueTyped`: methods with types of values where there are values.

## Main results

* `bindParameters_keeps`: the bindings of an operation, given what the binding of one parameter
  keeps.
* `buildMethod_keeps_valued`: the method of an operation.
-/

namespace ServiceContract

open Build
open Session (Valued)

/-- There is no schema for the result of an operation: no media type of a success response, or one
without a schema, or with null in its place. -/
inductive LacksResult (doc : Document) (operation : Node) : Prop
  | media {content : Option Node} (hcontent : successContent doc operation = .ok content)
    (hmedia : firstMedia content = .ok none) : LacksResult doc operation
  | schema {content : Option Node} {mediaType : Scalar} {media schema : Node}
    (hcontent : successContent doc operation = .ok content)
    (hmedia : firstMedia content = .ok (some (mediaType, media)))
    (hschema : media.get "schema" = .ok schema) (hnull : schema.isNull = true) :
    LacksResult doc operation

/-- A parameter other than the handle for the response, with a type of values. -/
def Binding.ValueTyped (b : Binding) : Prop :=
  b.location ≠ .response ∧ b.type.IsValue

/-- The method of an operation has the absence of a value as its result exactly if there is no
schema for it. The result has a type of values otherwise, and so has each parameter but the handle
for the response, which comes last where callers ask for it; no other parameter has its location. -/
structure Method.ValueTyped (doc : Document) (includeResponse : Bool) (operation : Node)
    (m : Method) : Prop where
  noValue : m.returnType = .noValue ↔ LacksResult doc operation
  result : m.returnType = .noValue ∨ m.returnType.IsValue
  parameters : ∃ own, m.parameters = own ++ responseHandles includeResponse ∧
    ∀ b ∈ own, b.ValueTyped

variable {r : Resolver}

/-! ### Bindings -/

section Bindings

variable {I : Session → Prop} {Q : Binding → Prop} {owner : String}

theorem bindAll_keeps {location : Location} (h : ∀ p, Keeps I Q (bindParameter r owner location p))
    (parameters : List Node) :
    Keeps I (fun bs => ∀ b ∈ bs, Q b) (bindAll r owner location parameters) := by
  induction parameters with
  | nil => exact .pure fun _ hb => absurd hb List.not_mem_nil
  | cons p parameters ih =>
    exact .bind (h p) fun b hb => .bind ih fun bs hbs => .pure (List.forall_mem_cons.mpr ⟨hb, hbs⟩)

theorem bindLocations_keeps (parameters : List (String × Node)) {locations : List Location}
    (h : ∀ location ∈ locations, ∀ p, Keeps I Q (bindParameter r owner location p)) :
    Keeps I (fun bs => ∀ b ∈ bs, Q b) (bindLocations r owner parameters locations) := by
  induction locations with
  | nil => exact .pure fun _ hb => absurd hb List.not_mem_nil
  | cons location locations ih =>
    obtain ⟨hlocation, hlocations⟩ := List.forall_mem_cons.mp h
    exact .bind (bindAll_keeps hlocation _) fun bs hbs => .bind (ih hlocations) fun cs hcs =>
      .pure (List.forall_mem_append.mpr ⟨hbs, hcs⟩)

variable (hnote : ∀ e, Keeps I (fun _ => True) (note e))
include hnote

theorem keeps_of_notes {m : Build Unit} (h : Notes m) : Keeps I (fun _ => True) m := by
  induction h with
  | none => exact .pure trivial
  | note e _ ih => exact .bind (hnote e) fun _ _ => ih

theorem noteSkipped_keeps (parameters : List (String × Node)) :
    Keeps I (fun _ => True) (noteSkipped parameters) := by
  induction parameters with
  | nil => exact .pure trivial
  | cons p parameters ih =>
    obtain ⟨location, parameter⟩ := p
    rw [noteSkipped]
    split_ifs
    · exact ih
    · exact .lift_bind fun name _ => .bind (hnote _) fun _ _ => ih

/-- What the binding of each parameter keeps and has, the bindings of an operation keep and have. -/
theorem bindParameters_keeps
    (h : ∀ location ∈ boundLocations, ∀ p, Keeps I Q (bindParameter r owner location p))
    (pathItem operation : Node) :
    Keeps I (fun bs => ∀ b ∈ bs, Q b) (bindParameters r pathItem operation owner) :=
  .lift_bind fun _ _ => .bind (noteSkipped_keeps hnote _) fun _ _ => bindLocations_keeps _ h

end Bindings

/-- What does not depend on the names of bindings holds of them under other names. -/
theorem forall_mem_renameBindings {Q : Binding → Prop} (hname : ∀ b name, Q b → Q { b with name })
    (taken : List String) {bindings : List Binding} (h : ∀ b ∈ bindings, Q b) :
    ∀ b ∈ renameBindings taken bindings, Q b := by
  induction bindings generalizing taken with
  | nil => exact h
  | cons b bindings ih =>
    obtain ⟨hb, h⟩ := List.forall_mem_cons.mp h
    exact List.forall_mem_cons.mpr ⟨hname b _ hb, ih _ h⟩

/-! ### Types of values -/

theorem resolve_keeps_valued (schema : Node) (hint : String) :
    Keeps Valued schema.Gives (r.resolve schema hint) :=
  Resolver.resolveWithin_keeps_valued _ schema hint

theorem note_keeps_valued (e : Event) : Keeps Valued (fun _ => True) (note e) :=
  .modify fun _ hs => hs.congr rfl rfl

theorem bindParameter_keeps_valued (owner : String) {location : Location}
    (hlocation : location ∈ boundLocations) (parameter : Node) :
    Keeps Valued Binding.ValueTyped (bindParameter r owner location parameter) := by
  have hresponse : location ≠ .response := by
    rintro rfl
    exact absurd hlocation (by decide)
  refine .lift_bind fun name _ => .lift_bind fun wireName _ => .lift_bind fun schema _ => ?_
  refine .bind (resolve_keeps_valued schema.orEmpty _) fun type htype =>
    .lift_bind fun required _ => ?_
  exact .lift_bind fun default _ => .pure ⟨hresponse, htype.isValue schema.isNull_orEmpty⟩

theorem isNull_of_requestBody {doc : Document} {operation schema : Node} {mediaType : Scalar}
    {required : Bool} (h : requestBody doc operation = .ok (some (mediaType, schema, required))) :
    schema.isNull = false := by
  obtain ⟨body, -, h⟩ := except_bind_eq_ok.mp h
  split_ifs at h
  · cases h
  obtain ⟨body, -, h⟩ := except_bind_eq_ok.mp h
  obtain ⟨content, -, h⟩ := except_bind_eq_ok.mp h
  obtain ⟨media, -, h⟩ := except_bind_eq_ok.mp h
  rcases media with _ | ⟨mediaType, media⟩
  · cases h
  · obtain ⟨schema, -, h⟩ := except_bind_eq_ok.mp h
    split_ifs at h with hnull
    · cases h
    · obtain ⟨value, -, h⟩ := except_bind_eq_ok.mp h
      cases h
      exact eq_false_of_ne_true hnull

theorem buildBody_keeps_valued (operation : Node) (owner : String) :
    Keeps Valued (fun body => ∀ b ∈ body.2, b.ValueTyped) (buildBody r operation owner) := by
  refine .lift_bind fun body hbody => ?_
  rcases body with _ | ⟨mediaType, schema, required⟩
  · exact .pure fun _ hb => absurd hb List.not_mem_nil
  · refine .bind (resolve_keeps_valued schema _) fun type htype => .pure ?_
    exact List.forall_mem_singleton.mpr ⟨nofun, htype.isValue (isNull_of_requestBody hbody)⟩

/-! ### Results -/

theorem lacksResult_iff {doc : Document} {operation : Node} {content : Option Node}
    {mediaType : Scalar} {media schema : Node}
    (hcontent : successContent doc operation = .ok content)
    (hmedia : firstMedia content = .ok (some (mediaType, media)))
    (hschema : media.get "schema" = .ok schema) :
    LacksResult doc operation ↔ schema.isNull = true := by
  refine ⟨fun h => ?_, .schema hcontent hmedia hschema⟩
  cases h with
  | media hcontent' hmedia' =>
    cases hcontent.symm.trans hcontent'
    cases hmedia.symm.trans hmedia'
  | schema hcontent' hmedia' hschema' hnull =>
    cases hcontent.symm.trans hcontent'
    cases hmedia.symm.trans hmedia'
    cases hschema.symm.trans hschema'
    exact hnull

theorem buildResult_keeps_valued (operation : Node) (owner : String) :
    Keeps Valued (fun result => (result.2 = .noValue ↔ LacksResult r.doc operation) ∧
      (result.2 = .noValue ∨ result.2.IsValue)) (buildResult r operation owner) := by
  refine .lift_bind fun content hcontent => .lift_bind fun media hmedia => ?_
  rcases media with _ | ⟨mediaType, media⟩
  · exact .pure ⟨iff_of_true rfl (.media hcontent hmedia), .inl rfl⟩
  · refine .lift_bind fun schema hschema =>
      .bind (resolve_keeps_valued schema _) fun type htype => .pure ?_
    rw [lacksResult_iff hcontent hmedia hschema]
    by_cases hnull : schema.isNull = true
    · rw [Node.Gives, if_pos hnull] at htype
      exact ⟨iff_of_true htype hnull, .inl htype⟩
    · rw [Node.Gives, if_neg hnull] at htype
      exact ⟨iff_of_false htype.ne_noValue hnull, .inr htype⟩

/-! ### Methods -/

/-- The making of a method keeps types of values where there are values, in the session and in the
method. -/
theorem buildMethod_keeps_valued (includeResponse : Bool) (path : Scalar) (pathItem : Node)
    (httpMethod : String) (operation : Node) :
    Keeps Valued (Method.ValueTyped r.doc includeResponse operation)
      (buildMethod r includeResponse path pathItem httpMethod operation) := by
  rw [buildMethod_eq]
  refine .lift_bind fun id _ => ?_
  split_ifs
  · exact .fail _
  refine .bind (buildResult_keeps_valued operation _)
    fun ⟨produces, returnType⟩ ⟨hnone, hresult⟩ => ?_
  refine .bind (buildBody_keeps_valued operation _) fun ⟨consumes, body⟩ hbody => ?_
  have hparameter (location : Location) (hlocation : location ∈ boundLocations) (p : Node) :=
    bindParameter_keeps_valued (r := r) (Naming.pascal id) hlocation p
  refine .bind (bindParameters_keeps note_keeps_valued hparameter pathItem operation)
    fun bound hbound => ?_
  refine .bind (keeps_of_notes note_keeps_valued (noteRenamed_notes _ _)) fun _ _ =>
    .lift_bind fun summary _ => ?_
  refine .bind (.modify fun s hs => hs.congr rfl rfl) fun _ _ =>
    .bind (note_keeps_valued _) fun _ _ => .pure ?_
  have hrenamed := forall_mem_renameBindings (fun _ _ hb => hb)
    ((body ++ responseHandles includeResponse).map Binding.name) hbound
  exact ⟨hnone, hresult, _, rfl, List.forall_mem_append.mpr ⟨hbody, hrenamed⟩⟩

end ServiceContract
