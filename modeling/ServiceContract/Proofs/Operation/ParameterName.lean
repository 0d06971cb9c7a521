import ServiceContract.Proofs.Contract.ResponseHandle

/-!
# The parameters of methods

The parameters of a method are the request body, if there is one, the bound parameters, and the
handle for the response where callers ask for it. The names of the body and of the handle are
reserved; the bound parameters are renamed one after the other, each to a name that is neither
reserved nor given to one before. So all names are different, although a number behind a name may
make it that of a later parameter, which then gets a number in turn.

## Main definitions

* `responseHandles`: the handle for the response, where callers ask for it.
* `BodyParameter`: how an operation comes by the parameter for its request body.
* `KeepsFreeNames`: only names that are taken are changed.

## Main results

* `buildMethod_eq_ok`: the steps by which an operation becomes a method.
* `renameBindings_nodup`, `renameBindings_keepsFreeNames`: the names of renamed bindings.
* `buildMethod_parameters`: the parameters of a method.
-/

namespace ServiceContract

open Build

/-! ### Steps -/

/-- The handle for the response, where callers ask for it. -/
def responseHandles (includeResponse : Bool) : List Binding :=
  if includeResponse then [responseBinding] else []

section Steps

variable {r : Resolver} {operation : Node} {owner : String} {s t : Session}

/-- An operation that becomes a method has an identifier, and the method consists of the result, the
request body and the bindings, which are made in this order. -/
theorem buildMethod_eq_ok {includeResponse : Bool} {path : Scalar} {pathItem : Node}
    {httpMethod : String} {m : Method}
    (h : buildMethod r includeResponse path pathItem httpMethod operation s = (.ok m, t)) :
    ∃ id produces returnType consumes body bound summary s₁ s₂ s₃,
      operationName operation = .ok id ∧
      buildResult r operation (Naming.pascal id) s = (.ok (produces, returnType), s₁) ∧
      buildBody r operation (Naming.pascal id) s₁ = (.ok (consumes, body), s₂) ∧
      bindParameters r pathItem operation (Naming.pascal id) s₂ = (.ok bound, s₃) ∧
      operationSummary operation = .ok summary ∧
      m = { name := Naming.camel id
            returnType
            parameters := body ++
              renameBindings ((body ++ responseHandles includeResponse).map Binding.name) bound ++
              responseHandles includeResponse
            routing := { httpMethod, path, produces, consumes }
            summary } := by
  rw [buildMethod_eq, lift_bind_eq_ok] at h
  obtain ⟨id, hid, h⟩ := h
  split_ifs at h
  · cases h
  obtain ⟨⟨produces, returnType⟩, s₁, hresult, h⟩ := bind_eq_ok.mp h
  obtain ⟨⟨consumes, body⟩, s₂, hbody, h⟩ := bind_eq_ok.mp h
  obtain ⟨bound, s₃, hbound, h⟩ := bind_eq_ok.mp h
  obtain ⟨⟨⟩, s₄, -, h⟩ := bind_eq_ok.mp h
  obtain ⟨summary, hsummary, h⟩ := lift_bind_eq_ok.mp h
  obtain ⟨⟨⟩, s₅, -, h⟩ := bind_eq_ok.mp h
  obtain ⟨⟨⟩, s₆, -, h⟩ := bind_eq_ok.mp h
  obtain ⟨rfl, -⟩ := pure_eq_ok.mp h
  exact ⟨id, produces, returnType, consumes, body, bound, summary, s₁, s₂, s₃, hid, hresult,
    hbody, hbound, hsummary, rfl⟩

variable (r operation owner) in
/-- How an operation comes by the parameter for its request body: there is none without a body, and
one with the type of the schema of the body and its required flag otherwise. -/
inductive BodyParameter (s : Session) : List Binding → Session → Prop
  | absent (h : requestBody r.doc operation = .ok none) : BodyParameter s [] s
  | present {mediaType : Scalar} {schema : Node} {required : Bool} {type : TypeExpr} {t : Session}
    (h : requestBody r.doc operation = .ok (some (mediaType, schema, required)))
    (hres : r.resolve schema (owner ++ "Request") s = (.ok type, t)) :
    BodyParameter s [requestBinding type required] t

theorem bodyParameter_of_buildBody {consumes : Option Scalar} {body : List Binding}
    (h : buildBody r operation owner s = (.ok (consumes, body), t)) :
    BodyParameter r operation owner s body t := by
  obtain ⟨found, hbody, h⟩ := lift_bind_eq_ok.mp h
  cases found with
  | none =>
    cases h
    exact .absent hbody
  | some found =>
    obtain ⟨mediaType, schema, required⟩ := found
    obtain ⟨type, t', hres, h⟩ := bind_eq_ok.mp h
    cases h
    exact .present hbody hres

theorem BodyParameter.names {body : List Binding} (h : BodyParameter r operation owner s body t) :
    body.map Binding.name = [] ∨ body.map Binding.name = [requestName] := by
  cases h with
  | absent => exact .inl rfl
  | present => exact .inr rfl

end Steps

/-! ### Names -/

/-- A binding keeps its name unless the name is reserved or given to a binding before. -/
def KeepsFreeNames (reserved : List String) (bound renamed : List Binding) : Prop :=
  ∀ {i b c}, bound[i]? = some b → renamed[i]? = some c → b.name ∉ reserved →
    b.name ∉ (renamed.take i).map Binding.name → c.name = b.name

section Names

variable (taken : List String) (bindings : List Binding)

theorem renameBindings_forall₂ :
    List.Forall₂ Binding.SameButName bindings (renameBindings taken bindings) := by
  induction bindings generalizing taken with
  | nil => exact .nil
  | cons b bindings ih => exact .cons rfl (ih _)

/-- The new names are different from each other and from those that are taken. -/
theorem renameBindings_nodup :
    ((renameBindings taken bindings).map Binding.name).Nodup ∧
      ∀ b ∈ renameBindings taken bindings, b.name ∉ taken := by
  induction bindings generalizing taken with
  | nil => exact ⟨.nil, fun _ hb => absurd hb List.not_mem_nil⟩
  | cons b bindings ih =>
    obtain ⟨hnodup, hfree⟩ := ih (freshName "" taken b.name :: taken)
    constructor
    · refine List.nodup_cons.mpr ⟨fun hmem => ?_, hnodup⟩
      obtain ⟨c, hc, hname⟩ := List.mem_map.mp hmem
      exact hfree c hc (hname ▸ List.mem_cons_self)
    · refine List.forall_mem_cons.mpr ⟨freshName_not_mem "" taken b.name, fun c hc hmem => ?_⟩
      exact hfree c hc (List.mem_cons_of_mem _ hmem)

theorem renameBindings_keepsFreeNames :
    KeepsFreeNames taken bindings (renameBindings taken bindings) := by
  induction bindings generalizing taken with
  | nil =>
    intro i b c hb
    cases hb
  | cons b bindings ih =>
    intro i b' c hb hc hreserved hbefore
    cases i with
    | zero =>
      cases hb
      cases hc
      exact freshName_of_not_mem hreserved
    | succ i =>
      have hne := List.ne_of_not_mem_cons hbefore
      exact ih _ hb hc (List.not_mem_cons_of_ne_of_not_mem hne hreserved)
        (List.not_mem_of_not_mem_cons hbefore)

end Names

/-- The names of the body and of the handle are different, and so are all names of parameters that
are neither of them, however they are renamed. -/
theorem nodup_parameters {r : Resolver} {operation : Node} {owner : String} {s t : Session}
    {body : List Binding} (h : BodyParameter r operation owner s body t) (includeResponse : Bool)
    (bound : List Binding) :
    ((body ++ renameBindings ((body ++ responseHandles includeResponse).map Binding.name) bound ++
      responseHandles includeResponse).map Binding.name).Nodup := by
  obtain ⟨hnodup, hfree⟩ :=
    renameBindings_nodup ((body ++ responseHandles includeResponse).map Binding.name) bound
  have hreserved : ((body ++ responseHandles includeResponse).map Binding.name).Nodup := by
    rw [List.map_append]
    rcases h.names with hbody | hbody
    · rw [hbody]
      cases includeResponse <;> decide
    · rw [hbody]
      cases includeResponse <;> decide
  have hapart : ((body ++ responseHandles includeResponse).map Binding.name).Disjoint
      ((renameBindings ((body ++ responseHandles includeResponse).map Binding.name) bound).map
        Binding.name) := by
    intro name hname hmem
    obtain ⟨b, hb, rfl⟩ := List.mem_map.mp hmem
    exact hfree b hb hname
  have hperm :
      (body ++ renameBindings ((body ++ responseHandles includeResponse).map Binding.name) bound ++
        responseHandles includeResponse).Perm
        ((body ++ responseHandles includeResponse) ++
          renameBindings ((body ++ responseHandles includeResponse).map Binding.name) bound) := by
    rw [List.append_assoc, List.append_assoc]
    exact List.perm_append_comm.append_left body
  rw [(hperm.map Binding.name).nodup_iff, List.map_append]
  exact List.nodup_append'.mpr ⟨hreserved, hnodup, hapart⟩

/-- The parameters of a method are the one for the request body, which there is if the operation has
a body, the bound parameters in their order, which differ at most in their names, and the handle for
the response, which there is where callers ask for it. All names are different, and a bound
parameter keeps its name unless the name is that of the body or of the handle, or has been given to
a bound parameter before. -/
theorem buildMethod_parameters {r : Resolver} {includeResponse : Bool} {path : Scalar}
    {pathItem : Node} {httpMethod : String} {operation : Node} {s t : Session} {m : Method}
    (h : buildMethod r includeResponse path pathItem httpMethod operation s = (.ok m, t)) :
    ∃ id result body bound renamed s₁ s₂ s₃,
      operationName operation = .ok id ∧
      buildResult r operation (Naming.pascal id) s = (.ok result, s₁) ∧
      BodyParameter r operation (Naming.pascal id) s₁ body s₂ ∧
      bindParameters r pathItem operation (Naming.pascal id) s₂ = (.ok bound, s₃) ∧
      m.parameters = body ++ renamed ++ responseHandles includeResponse ∧
      List.Forall₂ Binding.SameButName bound renamed ∧
      (m.parameters.map Binding.name).Nodup ∧
      KeepsFreeNames ((body ++ responseHandles includeResponse).map Binding.name)
        bound renamed := by
  obtain ⟨id, produces, returnType, consumes, body, bound, summary, s₁, s₂, s₃, hid, hresult,
    hbody, hbound, -, rfl⟩ := buildMethod_eq_ok h
  have hparameter := bodyParameter_of_buildBody hbody
  exact ⟨id, _, body, bound, _, s₁, s₂, s₃, hid, hresult, hparameter, hbound, rfl,
    renameBindings_forall₂ _ bound, nodup_parameters hparameter includeResponse bound,
    renameBindings_keepsFreeNames _ bound⟩

/-- A document without references. -/
def plainDocument : Resolver where
  doc := .ofValue (.map [])
  primitives := pythonPrimitives

/-- An operation with a request body and a handle for the response, and with parameters whose names
are those of the body, of the handle, and of other parameters with a number. -/
def clashingOperation : Node :=
  .ofValue [] (.map [
    (.text "operationId", .scalar (.text "saveRow")),
    (.text "requestBody", .map [
      (.text "required", .scalar (.bool true)),
      (.text "content", .map [(.text "application/json", .map [(.text "schema", .map [
        (.text "type", .scalar (.text "string"))])])])]),
    (.text "parameters", .list [
      .map [(.text "name", .scalar (.text "request")), (.text "in", .scalar (.text "query"))],
      .map [(.text "name", .scalar (.text "id")), (.text "in", .scalar (.text "query"))],
      .map [(.text "name", .scalar (.text "id")), (.text "in", .scalar (.text "path"))],
      .map [(.text "name", .scalar (.text "id2")), (.text "in", .scalar (.text "header"))],
      .map [(.text "name", .scalar (.text "response")), (.text "in", .scalar (.text "header"))]])])

/-- The number behind the second `id` takes the name of the parameter behind it. -/
theorem buildMethod_parameters_clashingOperation :
    ∃ m t, buildMethod plainDocument true (.text "/rows") .empty "post" clashingOperation
      .blank = (.ok m, t) ∧
      m.parameters.map Binding.name =
        ["request", "id", "request2", "id2", "id22", "response2", "response"] ∧
      ∃ id result body bound renamed s₁ s₂ s₃,
        operationName clashingOperation = .ok id ∧
        buildResult plainDocument clashingOperation (Naming.pascal id) .blank = (.ok result, s₁) ∧
        BodyParameter plainDocument clashingOperation (Naming.pascal id) s₁ body s₂ ∧
        bindParameters plainDocument .empty clashingOperation (Naming.pascal id) s₂ =
          (.ok bound, s₃) ∧
        m.parameters = body ++ renamed ++ responseHandles true ∧
        List.Forall₂ Binding.SameButName bound renamed ∧
        (m.parameters.map Binding.name).Nodup ∧
        KeepsFreeNames ((body ++ responseHandles true).map Binding.name) bound renamed :=
  ⟨_, _, rfl, rfl, buildMethod_parameters rfl⟩

end ServiceContract
