import ServiceContract.Proofs.Operation.Parameter
import ServiceContract.Proofs.Operation.ParameterName

/-!
# Request bodies

The request body of an operation is read off the first media type of its content. So where several
media types stand side by side, the first one with a schema is found if it stands in front of all
others; if one without a schema stands before it, there is no request body, and the method has no
parameter for it.

## Main definitions

* `Node.CarriesSchema`: the schema of a media type.
* `HasContent`: the content of the request body of an operation.

## Main results

* `requestBody_eq`: the request body, given the content.
* `requestBody_iff`: the first media type with a schema, as the request body and as a parameter.
-/

namespace ServiceContract

open Build

/-- The media type has the schema, which is not null. -/
def Node.CarriesSchema (media schema : Node) : Prop :=
  media.get "schema" = .ok schema ∧ schema.isNull = false

/-- The operation has a request body, itself or by reference, with the given media types. -/
structure HasContent (doc : Document) (operation body : Node) (media : List (Scalar × Node)) :
    Prop where
  leads : ∃ stated, operation.get "requestBody" = .ok stated ∧ doc.follow stated = .ok body
  content : ∃ content, body.get "content" = .ok content ∧ content.entries = .ok media

/-! ### The first media type -/

section First

variable {doc : Document} {operation body : Node} {mediaType : Scalar} {media : Node}
  {rest : List (Scalar × Node)}

/-- A map with an entry that is not null counts as present. -/
theorem isTruthy_of_get {n value : Node} {key : String} (hget : n.get key = .ok value)
    (hne : value ≠ Node.null) :
    n.isTruthy = true := by
  cases n with
  | map a entries =>
    cases entries with
    | nil => exact absurd (Except.ok.inj hget).symm hne
    | cons => rfl
  | _ => cases hget

/-- What leads to a map with an entry that is not null counts as present. -/
theorem isTruthy_of_follow {stated value : Node} {key : String} (h : doc.follow stated = .ok body)
    (hget : body.get key = .ok value) (hne : value ≠ Node.null) : stated.isTruthy = true := by
  by_contra hfalse
  -- Nothing that counts as absent is a reference, so that it leads to itself.
  have hself (href : stated.has "$ref" = .ok false) : False := by
    rw [Document.follow, Document.followFrom, href] at h
    cases h
    exact hfalse (isTruthy_of_get hget hne)
  cases stated with
  | leaf a value =>
    cases value with
    | text text =>
      have htext : text = "" := by simpa [Node.isTruthy, Scalar.isTruthy] using hfalse
      exact hself (by rw [htext]; rfl)
    | _ => cases h
  | list a items =>
    cases items with
    | nil => exact hself rfl
    | cons => exact hfalse rfl
  | map a entries =>
    cases entries with
    | nil => exact hself rfl
    | cons => exact hfalse rfl
  | link => exact hfalse rfl

theorem HasContent.exists_required {media : List (Scalar × Node)}
    (h : HasContent doc operation body media) :
    ∃ required, body.get "required" = .ok required := by
  obtain ⟨-, content, hcontent, -⟩ := h
  cases body with
  | map a entries => exact ⟨_, rfl⟩
  | _ => cases hcontent

/-- The request body is what the first media type says, and the required flag of the body. -/
theorem requestBody_eq (h : HasContent doc operation body ((mediaType, media) :: rest)) :
    requestBody doc operation = (do
      let schema ← media.orEmpty.get "schema"
      if schema.isNull then return none
      else return some (mediaType, schema, (← body.get "required").isTruthy)) := by
  obtain ⟨⟨stated, hstated, hbody⟩, content, hcontent, hentries⟩ := h
  have hne : content ≠ Node.null := by
    rintro rfl
    cases hentries
  have htruthy : content.isTruthy = true := by
    cases content with
    | map a entries =>
      cases entries with
      | nil => cases hentries
      | cons => rfl
    | _ => cases hentries
  have hpresent := isTruthy_of_follow hbody hcontent hne
  rw [requestBody, hstated, except_ok_bind, hpresent]
  simp only [Bool.not_true, Bool.false_eq_true, if_false]
  rw [hbody, except_ok_bind, hcontent, except_ok_bind, firstMedia, Node.entriesIfAny,
    if_pos htruthy, hentries]
  rfl

/-- A media type without a description has no schema. -/
theorem Node.carriesSchema_iff {schema : Node} :
    media.CarriesSchema schema ↔ media.orEmpty.get "schema" = .ok schema ∧
    schema.isNull = false := by
  rw [CarriesSchema, orEmpty]
  split_ifs with htruthy
  · rfl
  · constructor
    · rintro ⟨hget, hnull⟩
      refine absurd (isTruthy_of_get hget ?_) htruthy
      rintro rfl
      cases hnull
    · rintro ⟨hget, hnull⟩
      cases hget
      cases hnull

/-- If the first media type has no schema, there is no request body, or the media type cannot be
read. -/
theorem requestBody_of_not_carriesSchema
    (h : HasContent doc operation body ((mediaType, media) :: rest))
    (hmedia : ∀ schema, ¬ media.CarriesSchema schema) :
    requestBody doc operation = .ok none ∨ requestBody doc operation = .error .malformed := by
  have hP : KindFaults (· = .malformed) := ⟨rfl⟩
  rw [requestBody_eq h]
  cases hget : media.orEmpty.get "schema" with
  | error fault =>
    obtain rfl : fault = .malformed := hP.get media.orEmpty "schema" hget
    exact .inr rfl
  | ok schema =>
    left
    cases hnull : schema.isNull with
    | true => rw [except_ok_bind, hnull]; rfl
    | false => exact absurd (Node.carriesSchema_iff.mpr ⟨hget, hnull⟩) (hmedia schema)

end First

/-! ### Parameters for request bodies -/

/-- A parameter that is bound stands in the path, in the query or in a header. -/
theorem location_of_bindParameters {r : Resolver} {pathItem operation : Node} {owner : String}
    {s t : Session} {bound : List Binding}
    (h : bindParameters r pathItem operation owner s = (.ok bound, t)) :
    ∀ b ∈ bound, b.location ∈ boundLocations := by
  obtain ⟨chosen, -, h⟩ := lift_bind_eq_ok.mp h
  obtain ⟨⟨⟩, u, -, h⟩ := bind_eq_ok.mp h
  intro b hb
  obtain ⟨p, hp, hlocation⟩ := (binds_of_bindLocations h).location b hb
  exact hlocation ▸ (mem_placed.mp hp).1

section Method

variable {r : Resolver} {includeResponse : Bool} {path : Scalar} {pathItem : Node}
  {httpMethod : String} {operation : Node} {s t : Session} {m : Method}

/-- A method has a parameter for the request body if and only if the operation has a request
body. -/
theorem exists_body_iff
    (h : buildMethod r includeResponse path pathItem httpMethod operation s = (.ok m, t)) :
    (∃ p ∈ m.parameters, p.location = .body) ↔ ∃ found, requestBody r.doc operation =
      .ok (some found) := by
  obtain ⟨id, produces, returnType, consumes, body, bound, summary, s₁, s₂, s₃, -, -, hbody,
    hbound, -, rfl⟩ :=
    buildMethod_eq_ok h
  have hrenamed :=
    renameBindings_forall₂ ((body ++ responseHandles includeResponse).map Binding.name) bound
  dsimp only
  generalize renameBindings ((body ++ responseHandles includeResponse).map Binding.name) bound =
    renamed at hrenamed ⊢
  have hlocations : bound.map Binding.location = renamed.map Binding.location := by
    rw [← List.forall₂_eq_eq_eq, List.forall₂_map_left_iff, List.forall₂_map_right_iff]
    exact hrenamed.imp fun b c h => (congrArg Binding.location h).symm
  have hothers : ∀ p ∈ renamed ++ responseHandles includeResponse, p.location ≠ .body := by
    refine List.forall_mem_append.mpr ⟨fun p hp heq => ?_, ?_⟩
    · have hmem := List.mem_map_of_mem (f := Binding.location) hp
      rw [← hlocations, heq] at hmem
      obtain ⟨b, hb, hlocation⟩ := List.mem_map.mp hmem
      exact absurd (hlocation ▸ location_of_bindParameters hbound b hb) (by decide)
    · cases includeResponse with
      | true => exact List.forall_mem_singleton.mpr nofun
      | false => exact fun p hp => absurd hp List.not_mem_nil
  rw [List.append_assoc]
  cases bodyParameter_of_buildBody hbody with
  | absent hnone =>
    constructor
    · rintro ⟨p, hp, heq⟩
      exact absurd heq (hothers p hp)
    · rintro ⟨found, hfound⟩
      cases hnone.symm.trans hfound
  | present hsome hres =>
    exact ⟨fun _ => ⟨_, hsome⟩, fun _ => ⟨_, List.mem_cons_self, rfl⟩⟩

end Method

/-- The first media type with a schema is the request body, with that schema and the required flag
of the body, if it stands in front of all others. If it does not, the operation has no request body,
unless the media type in front cannot be read at all. So a method of the operation has a parameter
for the request body if and only if no media type stands before the first one with a schema. -/
theorem requestBody_iff {r : Resolver} {operation body media schema : Node} {mediaType : Scalar}
    {before after : List (Scalar × Node)}
    (h : HasContent r.doc operation body (before ++ (mediaType, media) :: after))
    (hbefore : ∀ e ∈ before, ∀ schema, ¬ e.2.CarriesSchema schema)
    (hmedia : media.CarriesSchema schema) :
    ∃ required, body.get "required" = .ok required ∧
      (before = [] → requestBody r.doc operation =
        .ok (some (mediaType, schema, required.isTruthy))) ∧
      (before ≠ [] → requestBody r.doc operation = .ok none ∨ requestBody r.doc operation =
        .error .malformed) ∧
      ∀ {includeResponse path pathItem httpMethod s m t},
        buildMethod r includeResponse path pathItem httpMethod operation s = (.ok m, t) →
          ((∃ p ∈ m.parameters, p.location = .body) ↔ before = []) := by
  obtain ⟨required, hrequired⟩ := h.exists_required
  have hfirst (hempty : before = []) :
      requestBody r.doc operation = .ok (some (mediaType, schema, required.isTruthy)) := by
    rw [hempty] at h
    obtain ⟨hget, hnull⟩ := Node.carriesSchema_iff.mp hmedia
    rw [requestBody_eq h, hget, except_ok_bind, hnull, hrequired]
    rfl
  have hlater (hne : before ≠ []) :
      requestBody r.doc operation = .ok none ∨ requestBody r.doc operation = .error .malformed := by
    obtain ⟨e, es, rfl⟩ := List.exists_cons_of_ne_nil hne
    exact requestBody_of_not_carriesSchema h (hbefore e List.mem_cons_self)
  refine ⟨required, hrequired, hfirst, hlater, fun hbuild => (exists_body_iff hbuild).trans ?_⟩
  constructor
  · rintro ⟨found, hfound⟩
    by_contra hne
    rcases hlater hne with hnone | hfault
    · cases hnone.symm.trans hfound
    · cases hfault.symm.trans hfound
  · exact fun hempty => ⟨_, hfirst hempty⟩

/-- A document with a request body of two media types. -/
def patches : Resolver where
  doc := .ofValue
    (.map [(.text "components",
      .map [(.text "requestBodies",
        .map [(.text "Patch", .map [ (.text "required", .scalar (.bool true)),
    (.text "content", .map [
      (.text "application/json",
        .map [(.text "schema", .map [(.text "type", .scalar (.text "string"))])]),
      (.text "text/plain", .map [])])])])])])
  primitives := pythonPrimitives

/-- An operation that refers to that request body. -/
def patchOperation : Node :=
  .ofValue [.key (.text "patch")] (.map [
    (.text "operationId", .scalar (.text "patchRow")),
    (.text "requestBody",
      .map [(.text "$ref", .scalar (.text "#/components/requestBodies/Patch"))])])

/-- The first media type has a schema, which is that of the request body. -/
theorem requestBody_iff_patchOperation :
    ∃ body media schema after, HasContent patches.doc patchOperation body
        ([] ++ (.text "application/json", media) :: after) ∧ media.CarriesSchema schema ∧
      requestBody patches.doc patchOperation = .ok (some (.text "application/json", schema, true)) ∧
      ∃ m t, buildMethod patches false (.text "/rows") .empty "patch" patchOperation
        .blank = (.ok m, t) ∧
        ∃ p ∈ m.parameters, p.location = .body := by
  obtain ⟨body, media, schema, after, hcontent, hmedia, hrequired⟩ : ∃ body media schema after,
      HasContent patches.doc patchOperation body
      ([] ++ (.text "application/json", media) :: after) ∧
        media.CarriesSchema schema ∧ (body.get "required").map Node.isTruthy = .ok true :=
    ⟨_, _, _, _, ⟨⟨_, rfl, rfl⟩, _, rfl, rfl⟩, ⟨rfl, rfl⟩, rfl⟩
  obtain ⟨m, t, hbuild⟩ : ∃ m t,
      buildMethod patches false (.text "/rows") .empty "patch" patchOperation .blank =
      (.ok m, t) := ⟨_, _, rfl⟩
  obtain ⟨required, hget, hfirst, -, hmethod⟩ :=
    requestBody_iff hcontent (fun e he => absurd he List.not_mem_nil) hmedia
  rw [hget] at hrequired
  have hbody := hfirst rfl
  rw [Except.ok.inj hrequired] at hbody
  exact ⟨body, media, schema, after, hcontent, hmedia, hbody, m, t, hbuild,
    (hmethod hbuild).mpr rfl⟩

/-- An operation whose request body has a media type without a schema before one with a schema. -/
def uploadOperation : Node :=
  .ofValue [.key (.text "put")] (.map [
    (.text "operationId", .scalar (.text "upload")),
    (.text "requestBody", .map [(.text "content", .map [
      (.text "application/octet-stream", .map []),
      (.text "application/json",
        .map [(.text "schema", .map [(.text "type", .scalar (.text "string"))])])])])])

/-- The operation has no request body, and its method has no parameter, although one of its media
types has a schema. -/
theorem not_requestBody_uploadOperation :
    (∃ body untyped typed schema, HasContent patches.doc uploadOperation body
        [(.text "application/octet-stream", untyped), (.text "application/json", typed)] ∧
      (∀ schema, ¬ untyped.CarriesSchema schema) ∧ typed.CarriesSchema schema) ∧
    requestBody patches.doc uploadOperation = .ok none ∧
    ∃ m t, buildMethod patches false (.text "/rows") .empty "put" uploadOperation
      .blank = (.ok m, t) ∧
      m.parameters = [] := by
  refine ⟨⟨_, _, _, _, ⟨⟨_, rfl, rfl⟩, _, rfl, rfl⟩, ?_, ⟨rfl, rfl⟩⟩, rfl, _, _, rfl, rfl⟩
  rintro schema ⟨hget, hnull⟩
  cases hget
  cases hnull

end ServiceContract
