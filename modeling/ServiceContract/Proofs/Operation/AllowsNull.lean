import ServiceContract.Proofs.Schema.AllowsNull

/-!
# Operations on schemas that allow null

The parameters, contents and bodies of an operation are found in the same way whether schemas allow
null or not, since these things are no schemas themselves. Their schemas resolve in the same way, so
that the same methods are made.

## Main results

* `Document.AllowsNull.collectKeyedParameters`, `Document.AllowsNull.successContent`,
  `Document.AllowsNull.requestBody`: what operations say.
* `Document.AllowsNull.buildPaths`: the methods of paths.
-/

namespace ServiceContract

namespace Document

variable {doc : Document} {S : Address → Bool} {n n' pathItem pathItem' operation operation' : Node}

namespace AllowsNull

/-! ### Parameters -/

theorem parameterName (h : doc.Counterpart S .parameter n n') :
    ServiceContract.parameterName n' = (ServiceContract.parameterName n).map (Node.withNull S) := by
  rw [ServiceContract.parameterName, ServiceContract.parameterName, h.eq,
    Node.get?_withNull (by decide : "name" ≠ "type")]
  cases n.get? "name" with
  | error fault => rfl
  | ok found => cases found <;> rfl

theorem insertParameter {key : ParameterKey} {ps ps' : List (ParameterKey × Node)}
    (hps : List.Forall₂ (SameKey (doc.Counterpart S .parameter)) ps ps')
    (h : doc.Counterpart S .parameter n n') :
    List.Forall₂ (SameKey (doc.Counterpart S .parameter)) (ServiceContract.insertParameter key n ps)
      (ServiceContract.insertParameter key n' ps') := by
  induction hps with
  | nil => exact .cons (.mk key h) .nil
  | cons hfirst hrest ih =>
    obtain ⟨key', hfirst⟩ := hfirst
    rw [ServiceContract.insertParameter, ServiceContract.insertParameter]
    split_ifs
    · exact .cons (.mk key' h) hrest
    · exact .cons (.mk key' hfirst) ih

variable (hS : doc.AllowsNull S)
include hS

theorem parameterLocation (h : doc.Counterpart S .parameter n n') :
    ServiceContract.parameterLocation n' = ServiceContract.parameterLocation n := by
  rw [ServiceContract.parameterLocation, ServiceContract.parameterLocation, h.eq,
    Node.get?_withNull (by decide : "in" ≠ "type")]
  cases hfound : n.get? "in" with
  | error fault => rfl
  | ok found =>
    cases found with
    | none => rfl
    | some location =>
      have hget : n.get "in" = .ok location := by rw [Node.get, hfound]; rfl
      have hvalue := hS.values (.key h.reads (by decide) hget)
      change (location.withNull S).toValue.plainText >>= _ = location.toValue.plainText >>= _
      rw [hvalue]

theorem parameterKey (h : doc.Counterpart S .parameter n n') :
    ServiceContract.parameterKey n' = ServiceContract.parameterKey n := by
  rw [ServiceContract.parameterKey, ServiceContract.parameterKey, parameterName h,
    hS.parameterLocation h]
  cases ServiceContract.parameterName n with
  | error fault => rfl
  | ok name => simp only [Except.map, except_ok_bind, Node.asScalar_withNull]

theorem mergeParameters {merged merged' : List (ParameterKey × Node)} {entries entries' : List Node}
    (hmerged : List.Forall₂ (SameKey (doc.Counterpart S .parameter)) merged merged')
    (h : List.Forall₂ (doc.Counterpart S .parameter) entries entries') :
    Corresponds (List.Forall₂ (SameKey (doc.Counterpart S .parameter)))
      (ServiceContract.mergeParameters doc merged entries)
      (ServiceContract.mergeParameters (doc.withNull S doc.size) merged' entries') := by
  induction h generalizing merged merged' with
  | nil => exact .ok hmerged
  | cons h _ ih =>
    refine (hS.follow h rfl).bind fun parameter parameter' _ hparameter => ?_
    rw [hS.parameterKey hparameter]
    exact .bind_right fun key _ => ih (insertParameter hmerged hparameter)

theorem collectKeyedParameters (hi : doc.Counterpart S .pathItem pathItem pathItem')
    (ho : doc.Counterpart S .operation operation operation') :
    Corresponds (List.Forall₂ (SameKey (doc.Counterpart S .parameter)))
      (ServiceContract.collectKeyedParameters doc pathItem operation)
      (ServiceContract.collectKeyedParameters (doc.withNull S doc.size) pathItem' operation') := by
  have hshared : ("parameters", Role.parameters) ∈ Role.keys .pathItem := by decide
  have hown : ("parameters", Role.parameters) ∈ Role.keys .operation := by decide
  refine (hi.get hshared (by decide)).bind fun shared shared' _ hshared => ?_
  refine (hshared.itemsIfAny (List.mem_singleton.mpr rfl)).bind fun ns ns' _ hns => ?_
  refine (ho.get hown (by decide)).bind fun own own' _ hown => ?_
  refine (hown.itemsIfAny (List.mem_singleton.mpr rfl)).bind fun ms ms' _ hms => ?_
  exact hS.mergeParameters .nil (List.rel_append hns hms)

/-! ### Contents -/

omit hS in
theorem responseAt {ns : List Node} (hns : ∀ m ∈ ns, doc.Reads .response m) (status : Node) :
    Corresponds (doc.Counterpart S .response) (ServiceContract.responseAt ns status)
      (ServiceContract.responseAt (ns.map (Node.withNull S)) (status.withNull S)) := by
  cases status with
  | leaf a v =>
    cases v with
    | int i =>
      simp only [ServiceContract.responseAt, Node.withNull, List.getElem?_map]
      cases hm : ns[i.toNat]? with
      | none => exact .fault _
      | some m => exact .ok ⟨hns m (List.mem_of_getElem? hm), rfl⟩
    | _ => exact .fault _
  | _ => exact .fault _

omit hS in
theorem statusText (status : Value) {response response' : Except Fault Node}
    (h : Corresponds (doc.Counterpart S .response) response response') :
    Corresponds (SameKey (Corresponds (doc.Counterpart S .response)))
      (ServiceContract.statusText status response) (ServiceContract.statusText status response') :=
  .bind_right fun text _ => .ok (.mk text h)

/-- The same statuses lead to counterparts. -/
theorem statuses (h : doc.Counterpart S .responses n n') :
    Corresponds (List.Forall₂ (SameKey (Corresponds (doc.Counterpart S .response))))
      (ServiceContract.statuses n) (ServiceContract.statuses n') := by
  have hentries := hS.entries h (by decide) (List.mem_singleton.mpr rfl)
  have hitems {respond : List Node → Node → Except Fault Node}
      (hrespond : ∀ ns, n.items = .ok ns → ∀ m,
        Corresponds (doc.Counterpart S .response) (respond ns m)
        (respond (ns.map (.withNull S)) (m.withNull S))) :
      Corresponds (List.Forall₂ (SameKey (Corresponds (doc.Counterpart S .response))))
        (n.items >>= fun ns => ns.mapM fun m => ServiceContract.statusText m.toValue (respond ns m))
        (n'.items >>= fun ns => ns.mapM fun m =>
          ServiceContract.statusText m.toValue (respond ns m)) := by
    rw [h.eq, Node.items_withNull]
    refine .bind_map fun ns hns => .mapM (R := fun m m' => m ∈ ns ∧ m' = m.withNull S) ?_ ?_
    · rw [List.forall₂_map_right_iff]
      exact List.forall₂_same.mpr fun m hm => ⟨hm, rfl⟩
    · rintro m _ ⟨hm, rfl⟩
      rw [hS.values (.item h.reads (by decide) hns hm)]
      exact statusText _ (hrespond ns hns m)
  have heq := h.eq
  subst heq
  cases n with
  | map a es =>
    refine hentries.bind fun es es' _ hes => .mapM hes fun {e e'} he => ?_
    obtain ⟨key, hresponse⟩ := he
    exact statusText _ (.ok hresponse)
  | list a ns =>
    exact hitems fun ns hns m => responseAt (fun m hm => .item h.reads (by decide) hns hm) m
  | _ => exact hitems fun _ _ _ => .fault _

omit hS in
/-- The least status is the same one. -/
theorem leastStatus {α : Type} {R : α → α → Prop} {es es' : List (String × α)}
    (h : List.Forall₂ (SameKey R) es es') :
    Option.Rel (SameKey R) (ServiceContract.leastStatus es) (ServiceContract.leastStatus es') := by
  induction h with
  | nil => exact .none
  | cons h _ ih =>
    obtain ⟨status, h⟩ := h
    rw [ServiceContract.leastStatus, ServiceContract.leastStatus]
    revert ih
    generalize ServiceContract.leastStatus _ = least
    generalize ServiceContract.leastStatus _ = least'
    rintro (⟨status', hleast⟩ | _)
    · dsimp only
      split_ifs
      · exact .some (.mk status' hleast)
      · exact .some (.mk status h)
    · exact .some (.mk status h)

/-- The content of the success response. -/
theorem successContent (ho : doc.Counterpart S .operation operation operation') :
    Corresponds (Option.Rel (doc.Counterpart S .content))
      (ServiceContract.successContent doc operation)
      (ServiceContract.successContent (doc.withNull S doc.size) operation') := by
  have hresponses : ("responses", Role.responses) ∈ Role.keys .operation := by decide
  have hcontent : ("content", Role.content) ∈ Role.keys .response := by decide
  refine (ho.get hresponses (by decide)).bind fun responses responses' _ hresponses => ?_
  rw [hresponses.isTruthy]
  refine .ite (.ok .none) ((hS.statuses hresponses).bind fun es es' _ hes => ?_)
  have hleast := leastStatus (SameKey.filter hes isSuccess)
  revert hleast
  generalize ServiceContract.leastStatus _ = least
  generalize ServiceContract.leastStatus _ = least'
  rintro (⟨status, hresponse⟩ | _)
  · refine hresponse.bind fun response response' _ hresponse => ?_
    refine (hS.follow hresponse.orEmpty rfl).bind fun response response' _ hresponse => ?_
    refine (hresponse.get hcontent (by decide)).bind fun content content' _ hcontent => .ok ?_
    rw [hcontent.isTruthy]
    split_ifs
    · exact .some hcontent
    · exact .none
  · exact .ok .none

theorem firstMedia {content content' : Option Node}
    (h : Option.Rel (doc.Counterpart S .content) content content') :
    Corresponds (Option.Rel (SameKey (doc.Counterpart S .media)))
      (ServiceContract.firstMedia content) (ServiceContract.firstMedia content') := by
  cases h with
  | none => exact .ok .none
  | some h =>
    refine (hS.entriesIfAny h (by decide) (List.mem_singleton.mpr rfl)).bind fun es es' _ hes => ?_
    rcases hes with _ | ⟨⟨mediaType, hmedia⟩, _⟩
    · exact .ok .none
    · exact .ok (.some (.mk mediaType hmedia.orEmpty))

theorem requestBody (ho : doc.Counterpart S .operation operation operation') :
    Corresponds
      (Option.Rel (SameKey fun b b' => doc.Counterpart S .schema b.1 b'.1 ∧ b'.2 = b.2))
      (ServiceContract.requestBody doc operation)
      (ServiceContract.requestBody (doc.withNull S doc.size) operation') := by
  have hbody : ("requestBody", Role.body) ∈ Role.keys .operation := by decide
  have hcontent : ("content", Role.content) ∈ Role.keys .body := by decide
  have hschema : ("schema", Role.schema) ∈ Role.keys .media := by decide
  refine (ho.get hbody (by decide)).bind fun body body' _ hbody => ?_
  rw [hbody.isTruthy]
  refine .ite (.ok .none) ((hS.follow hbody rfl).bind fun body body' _ hbody => ?_)
  refine (hbody.get hcontent (by decide)).bind fun content content' _ hcontent => ?_
  refine (hS.firstMedia (.some hcontent)).bind fun media media' _ hmedia => ?_
  rcases hmedia with ⟨mediaType, hmedia⟩ | _
  · refine (hmedia.get hschema (by decide)).bind fun schema schema' _ hschema => ?_
    rw [hschema.isNull, hbody.get_eq (by decide : "required" ≠ "type")]
    refine .ite (.ok .none) (.bind_map fun required _ => .ok (.some (.mk mediaType ⟨hschema, ?_⟩)))
    exact Node.isTruthy_withNull required
  · exact .ok .none

end AllowsNull

/-! ### Methods -/

namespace AllowsNull

open Build

variable {r : Resolver} (hS : r.doc.AllowsNull S) (hkeeps : r.KeepsEnumerations S)
include hS

theorem noteSkipped {ps ps' : List (String × Node)}
    (h : List.Forall₂ (SameKey (r.doc.Counterpart S .parameter)) ps ps') :
    Build.Corresponds (ServiceContract.noteSkipped ps) (ServiceContract.noteSkipped ps') := by
  have hkey : ("name", Role.value) ∈ Role.keys .parameter := by decide
  induction h with
  | nil => exact .refl _
  | cons hp _ ih =>
    obtain ⟨location, hparameter⟩ := hp
    rw [ServiceContract.noteSkipped, ServiceContract.noteSkipped]
    refine .ite ih (.lift_bind (hparameter.get hkey (by decide)) fun name name' _ hname => ?_)
    rw [hS.toValue hname]
    exact .bind_right fun _ => ih

/-- A default is a value, which is the same in both documents. -/
theorem parameterDefault (location : Location) (h : r.doc.Counterpart S .schema n n') :
    ServiceContract.parameterDefault location n' = ServiceContract.parameterDefault location n := by
  have hdefault : ("default", Role.value) ∈ Role.keys .schema := by decide
  unfold ServiceContract.parameterDefault
  rw [h.get_eq (by decide : "default" ≠ "type")]
  cases hvalue : n.get "default" with
  | error fault => rfl
  | ok value => simp only [Except.map, except_ok_bind, hS.values (.key h.reads hdefault hvalue)]

include hkeeps

theorem bindParameter (owner : String) (location : Location)
    (h : r.doc.Counterpart S .parameter n n') :
    Build.Corresponds (ServiceContract.bindParameter r owner location n)
      (ServiceContract.bindParameter (r.withNull S) owner location n') := by
  have hschema : ("schema", Role.schema) ∈ Role.keys .parameter := by decide
  unfold ServiceContract.bindParameter
  rw [parameterName h, h.get_eq (by decide : "required" ≠ "type")]
  refine .lift_bind_map fun name _ => ?_
  rw [Node.asText_withNull]
  refine .lift_bind_right fun wireName _ =>
    .lift_bind (h.get hschema (by decide)) fun schema schema' _ hschema => ?_
  have hpresent := hschema.orEmpty
  refine .bind (hS.resolveSchema hkeeps hpresent _) fun type => .lift_bind_map fun required _ => ?_
  rw [Node.isTruthy_withNull]
  rw [hS.parameterDefault location hpresent]
  exact .refl _

theorem bindAll (owner : String) (location : Location) {ps ps' : List Node}
    (h : List.Forall₂ (r.doc.Counterpart S .parameter) ps ps') :
    Build.Corresponds (ServiceContract.bindAll r owner location ps)
      (ServiceContract.bindAll (r.withNull S) owner location ps') := by
  induction h with
  | nil => exact .refl _
  | cons h _ ih =>
    exact .bind (hS.bindParameter hkeeps owner location h) fun binding =>
      .bind ih fun bindings => .refl _

theorem bindLocations (owner : String) {ps ps' : List (String × Node)}
    (h : List.Forall₂ (SameKey (r.doc.Counterpart S .parameter)) ps ps')
    (locations : List Location) :
    Build.Corresponds (ServiceContract.bindLocations r owner ps locations)
      (ServiceContract.bindLocations (r.withNull S) owner ps' locations) := by
  induction locations with
  | nil => exact .refl _
  | cons location locations ih =>
    refine .bind (hS.bindAll hkeeps owner location ?_) fun bindings => .bind ih fun rest => .refl _
    rw [List.forall₂_map_left_iff, List.forall₂_map_right_iff]
    exact (SameKey.filter h (· == location.name)).imp fun _ _ hp => hp.value

variable (hi : r.doc.Counterpart S .pathItem pathItem pathItem')
  (ho : r.doc.Counterpart S .operation operation operation')

include ho in
theorem buildResult (owner : String) :
    Build.Corresponds (ServiceContract.buildResult r operation owner)
      (ServiceContract.buildResult (r.withNull S) operation' owner) := by
  have hschema : ("schema", Role.schema) ∈ Role.keys .media := by decide
  refine .lift_bind (hS.successContent ho) fun content content' _ hcontent => ?_
  refine .lift_bind (hS.firstMedia hcontent) fun media media' _ hmedia => ?_
  cases hmedia with
  | none => exact .refl _
  | some hmedia =>
    obtain ⟨mediaType, hmedia⟩ := hmedia
    refine .lift_bind (hmedia.get hschema (by decide)) fun schema schema' _ hschema => ?_
    exact .bind (hS.resolveSchema hkeeps hschema _) fun type => .refl _

include ho in
theorem buildBody (owner : String) :
    Build.Corresponds (ServiceContract.buildBody r operation owner)
      (ServiceContract.buildBody (r.withNull S) operation' owner) := by
  refine .lift_bind (hS.requestBody ho) fun body body' _ hbody => ?_
  cases hbody with
  | none => exact .refl _
  | some hbody =>
    obtain ⟨mediaType, hschema, hrequired⟩ := hbody
    dsimp only
    rw [hrequired]
    exact .bind (hS.resolveSchema hkeeps hschema _) fun type => .refl _

include hi ho in
theorem bindParameters (owner : String) :
    Build.Corresponds (ServiceContract.bindParameters r pathItem operation owner)
      (ServiceContract.bindParameters (r.withNull S) pathItem' operation' owner) := by
  refine .lift_bind (hS.collectKeyedParameters hi ho) fun keyed keyed' _ hkeyed => ?_
  have hparameters : List.Forall₂ (SameKey (r.doc.Counterpart S .parameter))
      (keyed.map fun p => (p.1.location, p.2)) (keyed'.map fun p => (p.1.location, p.2)) := by
    rw [List.forall₂_map_left_iff, List.forall₂_map_right_iff]
    refine hkeyed.imp fun _ _ hp => ?_
    obtain ⟨key, hparameter⟩ := hp
    exact .mk key.location hparameter
  exact .bind (hS.noteSkipped hparameters) fun _ =>
    hS.bindLocations hkeeps owner hparameters boundLocations

omit hkeeps in
include ho in
theorem operationName :
    ServiceContract.operationName operation' = ServiceContract.operationName operation := by
  have hkey : ("operationId", Role.value) ∈ Role.keys .operation := by decide
  unfold ServiceContract.operationName
  rw [ho.get_eq (by decide)]
  cases hid : operation.get "operationId" with
  | error fault => rfl
  | ok id =>
    simp only [Except.map, except_ok_bind, Node.isTruthy_withNull,
      hS.values (.key ho.reads hkey hid)]

omit hS hkeeps in
theorem operationSummary (ho : doc.Counterpart S .operation operation operation') :
    ServiceContract.operationSummary operation' = ServiceContract.operationSummary operation := by
  have hdescription := ho.get_trimmedText (by decide : "description" ≠ "type")
  unfold ServiceContract.operationSummary
  rw [ho.get_eq (by decide), hdescription]
  cases operation.get "summary" with
  | error fault => rfl
  | ok summary =>
    simp only [Except.map, except_ok_bind, Node.isTruthy_withNull, Node.trimmedText_withNull]

include hi ho in
theorem buildMethod (includeResponse : Bool) (path : Scalar) (httpMethod : String) :
    Build.Corresponds
      (ServiceContract.buildMethod r includeResponse path pathItem httpMethod operation)
      (ServiceContract.buildMethod (r.withNull S) includeResponse path pathItem' httpMethod
        operation') := by
  unfold ServiceContract.buildMethod
  rw [hS.operationName ho, operationSummary ho]
  refine .lift_bind_right fun operationId _ => .ite (.refl _) ?_
  refine .bind (hS.buildResult hkeeps ho _) fun result => ?_
  refine .bind (hS.buildBody hkeeps ho _) fun body => ?_
  exact .bind (hS.bindParameters hkeeps hi ho _) fun bound => .refl _

include hi in
theorem buildOperations (includeResponse : Bool) (path : Scalar) {methods : List String}
    (hmethods : methods ⊆ httpMethods) :
    Build.Corresponds (ServiceContract.buildOperations r includeResponse path pathItem methods)
      (ServiceContract.buildOperations (r.withNull S) includeResponse path pathItem' methods) := by
  have hid : ("operationId", Role.value) ∈ Role.keys .operation := by decide
  have hnames : ∀ httpMethod ∈ httpMethods, httpMethod ≠ "type" := by decide
  induction methods with
  | nil => exact .refl _
  | cons httpMethod methods ih =>
    obtain ⟨hmethod, hrest⟩ := List.cons_subset.mp hmethods
    have hkey : (httpMethod, Role.operation) ∈ Role.keys .pathItem :=
      List.mem_cons_of_mem _ (List.mem_map_of_mem hmethod)
    refine .lift_bind (hi.get hkey (hnames _ hmethod)) fun operation operation' _ ho => ?_
    rw [ho.isNull]
    refine .ite (ih hrest) ?_
    rw [locating_congr (hS.get_toValue ho hid (by decide))]
    refine .bind ?_ fun _ => ih hrest
    exact (hS.buildMethod hkeeps hi ho includeResponse path httpMethod).locating httpMethod
      path operation

/-- The same methods are made for paths whose schemas allow null. -/
theorem buildPaths (includeResponse : Bool) {paths paths' : List (Scalar × Node)}
    (h : List.Forall₂ (SameKey (r.doc.Counterpart S .pathItem)) paths paths') :
    Build.Corresponds (ServiceContract.buildPaths r includeResponse paths)
      (ServiceContract.buildPaths (r.withNull S) includeResponse paths') := by
  induction h with
  | nil => exact .refl _
  | cons he _ ih =>
    obtain ⟨path, hitem⟩ := he
    rw [ServiceContract.buildPaths, ServiceContract.buildPaths]
    exact .bind (hS.buildOperations hkeeps hitem.orEmpty includeResponse path (List.Subset.refl _))
      fun _ => ih

end AllowsNull

end Document

end ServiceContract
