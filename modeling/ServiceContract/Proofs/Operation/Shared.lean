import ServiceContract.Contract.Build
import ServiceContract.Proofs.Operation.Part
import ServiceContract.Proofs.Schema.Shared

/-!
# Operations of documents that share nodes

An operation that two documents have in common has the same parameters, contents and bodies in both,
and so it becomes the same method, or fails with the same fault.

## Main results

* `Document.Shares.collectKeyedParameters`, `Document.Shares.successContent`,
  `Document.Shares.requestBody`: what operations say.
* `Resolver.Shares.buildPaths`: the methods of paths.
-/

namespace ServiceContract

/-- Steps are the same if they begin in the same way and go on alike. -/
theorem Build.lift_bind_congr {α β : Type} {x y : Except Fault α} {k l : α → Build β} (h : x = y)
    (hk : ∀ a, x = .ok a → k a = l a) : (liftM x : Build α) >>= k = (liftM y : Build α) >>= l := by
  subst h
  cases x with
  | error fault => rfl
  | ok a => exact hk a rfl

namespace Document.Shares

variable {doc doc' : Document} {P : Node → Prop} (h : Shares P doc doc') {operation : Node}
include h

/-! ### Parameters -/

theorem mergeParameters {entries : List Node} (he : ∀ n ∈ entries, P n)
    (merged : List (ParameterKey × Node)) :
    ServiceContract.mergeParameters doc merged entries =
      ServiceContract.mergeParameters doc' merged entries := by
  induction entries generalizing merged with
  | nil => rfl
  | cons entry entries ih =>
    obtain ⟨hentry, hentries⟩ := List.forall_mem_cons.mp he
    rw [ServiceContract.mergeParameters, ServiceContract.mergeParameters, h.follow hentry]
    exact bind_congr fun parameter => bind_congr fun key => ih hentries _

theorem collectKeyedParameters {pathItem : Node} (hi : P pathItem) (ho : P operation) :
    ServiceContract.collectKeyedParameters doc pathItem operation =
      ServiceContract.collectKeyedParameters doc' pathItem operation := by
  refine except_bind_congr rfl fun shared hshared =>
    except_bind_congr rfl fun sharedItems hsharedItems => ?_
  refine except_bind_congr rfl fun own hown => except_bind_congr rfl fun ownItems hownItems => ?_
  refine h.mergeParameters (fun n hn => ?_) []
  rcases List.mem_append.mp hn with hn | hn
  · exact h.closed.itemsIfAny (h.closed.get hi hshared) hsharedItems hn
  · exact h.closed.itemsIfAny (h.closed.get ho hown) hownItems hn

/-! ### Contents -/

theorem successContent (ho : P operation) :
    ServiceContract.successContent doc operation =
      ServiceContract.successContent doc' operation := by
  refine except_bind_congr rfl fun responses hresponses => ?_
  split_ifs
  · rfl
  refine except_bind_congr rfl fun es hes => ?_
  split
  · rfl
  · rename_i status response hleast
    refine except_bind_congr rfl fun stated hstated => ?_
    have hmem := (List.mem_filter.mp (mem_of_leastStatus hleast)).1
    have hresponse := h.closed.statuses (h.closed.get ho hresponses) hes hmem hstated
    rw [h.follow (h.closed.orEmpty hresponse)]

theorem requestBody (ho : P operation) :
    ServiceContract.requestBody doc operation = ServiceContract.requestBody doc' operation := by
  refine except_bind_congr rfl fun body hbody => ?_
  split_ifs
  · rfl
  · rw [h.follow (h.closed.get ho hbody)]

end Document.Shares

/-! ### Methods -/

namespace Resolver.Shares

open Build

variable {r r' : Resolver} {P : Node → Prop} (h : Shares P r r') {operation pathItem : Node}
include h

theorem bindParameter (owner : String) (location : Location) {parameter : Node} (hp : P parameter) :
    bindParameter r owner location parameter = bindParameter r' owner location parameter := by
  refine bind_congr fun name => bind_congr fun wireName =>
    lift_bind_congr rfl fun schema hschema => ?_
  simp only [h.resolve (h.doc.closed.orEmpty (h.doc.closed.get hp hschema))]

theorem bindAll (owner : String) (location : Location) {parameters : List Node}
    (hp : ∀ p ∈ parameters, P p) :
    bindAll r owner location parameters = bindAll r' owner location parameters := by
  induction parameters with
  | nil => rfl
  | cons p parameters ih =>
    obtain ⟨hp, hps⟩ := List.forall_mem_cons.mp hp
    rw [ServiceContract.bindAll, ServiceContract.bindAll, h.bindParameter owner location hp, ih hps]

theorem bindLocations (owner : String) {parameters : List (String × Node)}
    (hp : ∀ p ∈ parameters, P p.2) (locations : List Location) :
    bindLocations r owner parameters locations = bindLocations r' owner parameters locations := by
  induction locations with
  | nil => rfl
  | cons location locations ih =>
    rw [ServiceContract.bindLocations, ServiceContract.bindLocations, ih, h.bindAll owner location]
    rintro p hmem
    obtain ⟨q, hq, rfl⟩ := List.mem_map.mp hmem
    exact hp q (List.mem_filter.mp hq).1

theorem bindParameters (hi : P pathItem) (ho : P operation) (owner : String) :
    bindParameters r pathItem operation owner = bindParameters r' pathItem operation owner := by
  refine lift_bind_congr (h.doc.collectKeyedParameters hi ho) fun keyed hkeyed =>
    bind_congr fun _ => ?_
  refine h.bindLocations owner (fun p hp => ?_) boundLocations
  obtain ⟨q, hq, rfl⟩ := List.mem_map.mp hp
  exact h.doc.closed.collectKeyedParameters hi ho hkeyed q hq

theorem buildResult (ho : P operation) (owner : String) :
    buildResult r operation owner = buildResult r' operation owner := by
  refine lift_bind_congr (h.doc.successContent ho) fun content hcontent => ?_
  refine lift_bind_congr rfl fun media hmedia => ?_
  rcases media with _ | ⟨mediaType, media⟩
  · rfl
  · have hp := h.doc.closed.firstMedia
      (fun c hc => h.doc.closed.successContent ho (hc ▸ hcontent)) hmedia
    refine lift_bind_congr rfl fun schema hschema => ?_
    rw [h.resolve (h.doc.closed.get hp hschema)]

theorem buildBody (ho : P operation) (owner : String) :
    buildBody r operation owner = buildBody r' operation owner := by
  refine lift_bind_congr (h.doc.requestBody ho) fun body hbody => ?_
  rcases body with _ | ⟨mediaType, schema, required⟩
  · rfl
  · dsimp only
    rw [h.resolve (h.doc.closed.requestBody ho hbody)]

theorem buildMethod (includeResponse : Bool) (path : Scalar) (httpMethod : String) (hi : P pathItem)
    (ho : P operation) :
    buildMethod r includeResponse path pathItem httpMethod operation =
      buildMethod r' includeResponse path pathItem httpMethod operation := by
  simp only [ServiceContract.buildMethod, h.buildResult ho, h.buildBody ho, h.bindParameters hi ho]

theorem buildOperations (includeResponse : Bool) (path : Scalar) (hi : P pathItem)
    (methods : List String) :
    buildOperations r includeResponse path pathItem methods =
      buildOperations r' includeResponse path pathItem methods := by
  induction methods with
  | nil => rfl
  | cons httpMethod methods ih =>
    refine lift_bind_congr rfl fun operation hoperation => ?_
    rw [h.buildMethod includeResponse path httpMethod hi (h.doc.closed.get hi hoperation), ih]

/-- The same methods are made for paths that both documents have in common. -/
theorem buildPaths (includeResponse : Bool) {paths : List (Scalar × Node)}
    (hp : ∀ e ∈ paths, P e.2) :
    buildPaths r includeResponse paths = buildPaths r' includeResponse paths := by
  induction paths with
  | nil => rfl
  | cons e paths ih =>
    obtain ⟨hitem, hitems⟩ := List.forall_mem_cons.mp hp
    obtain ⟨path, pathItem⟩ := e
    rw [ServiceContract.buildPaths, ServiceContract.buildPaths, ih hitems,
      h.buildOperations includeResponse path (h.doc.closed.orEmpty hitem)]

end Resolver.Shares

end ServiceContract
