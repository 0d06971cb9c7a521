import Mathlib.Data.List.Forall2
import ServiceContract.Contract.Build
import ServiceContract.Proofs.Document.Alike
import ServiceContract.Proofs.Operation.Failure
import ServiceContract.Proofs.Session.Invariant

/-!
# Endpoints

An *endpoint* of a document is an HTTP method of one of its paths under which the path item has an
operation that is not null. The methods of paths are made along their endpoints, in the order of the
paths and, for each path, in the fixed order of the HTTP methods, and the work ends at the first
endpoint whose method cannot be made.

## Main definitions

* `Endpoint`, `endpoints`: the endpoints of paths, in order.
* `buildEndpoints`: the methods of endpoints, made one after the other.
* `FailsAt`: the first endpoint whose method cannot be made.
* `Visits`: steps that go along endpoints.

## Main results

* `nodup_endpoints`, `map_place_endpoints_congr`: no endpoint is listed twice, and the order of the
  keys inside path items does not matter.
* `keeps_buildEndpoints`: the methods that are made for endpoints.
* `buildPaths_visits`: how the making of the methods of paths goes along their endpoints.
-/

namespace ServiceContract

open Build

/-! ### Endpoints -/

/-- An HTTP method of a path, with the operation that the path item has under it. -/
structure Endpoint where
  path : Scalar
  pathItem : Node
  httpMethod : String
  operation : Node

namespace Endpoint

/-- The HTTP method and the path. -/
def place (e : Endpoint) : String × Scalar :=
  (e.httpMethod, e.path)

/-- Makes the method of the endpoint. -/
def build (r : Resolver) (includeResponse : Bool) (e : Endpoint) : Build Method :=
  buildMethod r includeResponse e.path e.pathItem e.httpMethod e.operation

end Endpoint

/-- The HTTP method and the path of a method. -/
def Method.place (m : Method) : String × Scalar :=
  (m.routing.httpMethod, m.routing.path)

/-- The operation of a path item under an HTTP method, unless it is null. -/
def Node.operation? (pathItem : Node) (httpMethod : String) : Option Node :=
  match pathItem.get httpMethod with
  | .ok operation => if operation.isNull then none else some operation
  | .error _ => none

/-- The endpoints of a path under the given HTTP methods. -/
def endpointsAt (path : Scalar) (pathItem : Node) (methods : List String) : List Endpoint :=
  methods.filterMap fun httpMethod =>
    (pathItem.operation? httpMethod).map fun operation => { path, pathItem, httpMethod, operation }

/-- The endpoints of paths. -/
def endpoints (paths : List (Scalar × Node)) : List Endpoint :=
  paths.flatMap fun e => endpointsAt e.1 e.2.orEmpty httpMethods

/-- Makes the methods of endpoints, one after the other. -/
def buildEndpoints (r : Resolver) (includeResponse : Bool) : List Endpoint → Build Unit
  | [] => pure ()
  | e :: es => do
    let _ ← e.build r includeResponse
    buildEndpoints r includeResponse es

variable {r : Resolver} {includeResponse : Bool} {path : Scalar} {pathItem : Node}
  {httpMethod : String} {methods : List String}

theorem endpointsAt_cons (h : pathItem.operation? httpMethod = none) :
    endpointsAt path pathItem (httpMethod :: methods) = endpointsAt path pathItem methods := by
  rw [endpointsAt, List.filterMap_cons, h]
  rfl

theorem endpointsAt_cons_some {operation : Node}
    (h : pathItem.operation? httpMethod = some operation) :
    endpointsAt path pathItem (httpMethod :: methods) =
      { path, pathItem, httpMethod, operation } :: endpointsAt path pathItem methods := by
  rw [endpointsAt, List.filterMap_cons, h]
  rfl

/-- The HTTP methods under which a path item has operations, with the path. -/
theorem map_place_endpointsAt (path : Scalar) (pathItem : Node) (methods : List String) :
    (endpointsAt path pathItem methods).map Endpoint.place =
      (methods.filter fun httpMethod => (pathItem.operation? httpMethod).isSome).map
        fun httpMethod =>
        (httpMethod, path) := by
  induction methods with
  | nil => rfl
  | cons httpMethod methods ih =>
    cases h : pathItem.operation? httpMethod with
    | none => rw [endpointsAt_cons h, ih, List.filter_cons_of_neg (by simp [h])]
    | some operation =>
      rw [endpointsAt_cons_some h, List.map_cons, ih, List.filter_cons_of_pos (by simp [h])]
      rfl

theorem map_place_endpoints (paths : List (Scalar × Node)) :
    (endpoints paths).map Endpoint.place =
      paths.flatMap fun e => (endpointsAt e.1 e.2.orEmpty httpMethods).map Endpoint.place := by
  rw [endpoints, List.map_flatMap]

/-- An endpoint has one of the paths. -/
theorem path_mem_of_mem_endpoints {paths : List (Scalar × Node)} {e : Endpoint}
    (h : e ∈ endpoints paths) :
    e.path ∈ paths.map Prod.fst := by
  obtain ⟨p, hp, he⟩ := List.mem_flatMap.mp h
  obtain ⟨httpMethod, -, he⟩ := List.mem_filterMap.mp he
  obtain ⟨operation, -, rfl⟩ := Option.map_eq_some_iff.mp he
  exact List.mem_map_of_mem hp

/-- No endpoint is listed twice. -/
theorem nodup_endpoints {paths : List (Scalar × Node)} (h : (paths.map Prod.fst).Nodup) :
    ((endpoints paths).map Endpoint.place).Nodup := by
  have hmethods : httpMethods.Nodup := by decide
  have hplace {p : String × Scalar} {e : Scalar × Node}
      (hp : p ∈ (endpointsAt e.1 e.2.orEmpty httpMethods).map Endpoint.place) : p.2 = e.1 := by
    rw [map_place_endpointsAt] at hp
    obtain ⟨_, -, rfl⟩ := List.mem_map.mp hp
    rfl
  rw [map_place_endpoints, List.nodup_flatMap]
  constructor
  · intro e _
    rw [map_place_endpointsAt]
    exact (hmethods.filter _).map fun _ _ heq => congrArg Prod.fst heq
  · rw [List.Nodup, List.pairwise_map] at h
    refine h.imp fun {e f} hne p hp hp' => ?_
    exact hne ((hplace hp).symm.trans (hplace hp'))

namespace Node.Alike

variable {n m : Node} (h : Alike n m)
include h

theorem orEmpty : Alike n.orEmpty m.orEmpty := by
  cases h with
  | refl => exact .refl _
  | reorder a hperm hkeys =>
    rw [Node.orEmpty, Node.orEmpty, isTruthy, isTruthy, hperm.isEmpty_eq]
    split_ifs
    · exact .reorder a hperm hkeys
    · exact .refl _

theorem operation? (httpMethod : String) : n.operation? httpMethod = m.operation? httpMethod := by
  rw [Node.operation?, Node.operation?, h.get]

end Node.Alike

/-- Path items that are alike have the same endpoints. -/
theorem map_place_endpoints_congr {paths paths' : List (Scalar × Node)}
    (h : List.Forall₂ (fun e e' => e.1 = e'.1 ∧ e.2.Alike e'.2) paths paths') :
    (endpoints paths).map Endpoint.place = (endpoints paths').map Endpoint.place := by
  rw [map_place_endpoints, map_place_endpoints]
  induction h with
  | nil => rfl
  | cons he _ ih =>
    obtain ⟨hpath, halike⟩ := he
    rw [List.flatMap_cons, List.flatMap_cons, ih, map_place_endpointsAt,
      map_place_endpointsAt, hpath]
    simp only [halike.orEmpty.operation?]

/-! ### Methods of endpoints -/

/-- A method that is made for a named operation has the HTTP method and the path that it is made
for. -/
theorem place_of_namedMethod {operation : Node} {id : String} {m : Method} {s t : Session}
    (h : namedMethod r includeResponse path pathItem httpMethod operation id s = (.ok m, t)) :
    m.place = (httpMethod, path) := by
  obtain ⟨_, _, -, h⟩ := bind_eq_ok.mp h
  obtain ⟨_, _, -, h⟩ := bind_eq_ok.mp h
  obtain ⟨_, _, -, h⟩ := bind_eq_ok.mp h
  obtain ⟨_, _, -, h⟩ := bind_eq_ok.mp h
  obtain ⟨_, -, h⟩ := lift_bind_eq_ok.mp h
  obtain ⟨_, _, -, h⟩ := bind_eq_ok.mp h
  obtain ⟨_, _, -, h⟩ := bind_eq_ok.mp h
  cases h
  rfl

theorem place_of_build {e : Endpoint} {m : Method} {s t : Session}
    (h : e.build r includeResponse s = (.ok m, t)) : m.place = e.place := by
  rw [Endpoint.build, buildMethod_eq] at h
  obtain ⟨id, -, h⟩ := lift_bind_eq_ok.mp h
  split_ifs at h
  · cases h
  · exact place_of_namedMethod h

/-- The method is made for the endpoint in some session. -/
def Endpoint.Makes (r : Resolver) (includeResponse : Bool) (e : Endpoint) (m : Method) : Prop :=
  ∃ s t, e.build r includeResponse s = (.ok m, t)

/-- The methods of endpoints are made and added in the order of the endpoints. What the making of
one method keeps holds of the session afterwards, and what is known of the method for an endpoint
holds of all of them. -/
theorem keeps_buildEndpoints {I : Session → Prop} {Q : Endpoint → Method → Prop}
    (hstep : ∀ e, Keeps I (Q e) (e.build r includeResponse)) {es : List Endpoint} {s t : Session}
    (h : buildEndpoints r includeResponse es s = (.ok (), t)) (hs : I s) :
    I t ∧ ∃ ms, t.methods = s.methods ++ ms ∧ List.Forall₂ Q es ms := by
  induction es generalizing s with
  | nil =>
    cases h
    exact ⟨hs, [], (List.append_nil _).symm, .nil⟩
  | cons e es ih =>
    obtain ⟨m, u, hm, h⟩ := bind_eq_ok.mp h
    have hadded : u.methods = s.methods ++ [m] := by
      have hadds :=
        buildMethod_addsMethod (r := r) s includeResponse e.path e.pathItem e.httpMethod e.operation
      rw [← Endpoint.build, hm] at hadds
      exact hadds.added rfl
    obtain ⟨hu, hmethod⟩ := hstep e hm hs
    obtain ⟨ht, ms, hms, hmethods⟩ := ih h hu
    refine ⟨ht, m :: ms, ?_, .cons hmethod hmethods⟩
    rw [hms, hadded, List.append_assoc]
    rfl

theorem Endpoint.build_keeps_makes (e : Endpoint) :
    Keeps (fun _ => True) (e.Makes r includeResponse) (e.build r includeResponse) :=
  fun s _ t h _ => ⟨trivial, s, t, h⟩

/-- Each of the methods is made for one of the endpoints. -/
theorem exists_makes {es : List Endpoint} {ms : List Method}
    (h : List.Forall₂ (Endpoint.Makes r includeResponse) es ms) :
    ∀ m ∈ ms, ∃ e ∈ es, e.Makes r includeResponse m := by
  induction h with
  | nil => exact fun m hm => absurd hm List.not_mem_nil
  | cons hm _ ih =>
    refine List.forall_mem_cons.mpr ⟨⟨_, List.mem_cons_self, hm⟩, fun m hmem => ?_⟩
    obtain ⟨e, he, hmakes⟩ := ih m hmem
    exact ⟨e, List.mem_cons_of_mem _ he, hmakes⟩

theorem map_place_of_makes {es : List Endpoint} {ms : List Method}
    (h : List.Forall₂ (Endpoint.Makes r includeResponse) es ms) :
    ms.map Method.place = es.map Endpoint.place := by
  induction h with
  | nil => rfl
  | cons hm _ ih =>
    obtain ⟨s, t, hm⟩ := hm
    rw [List.map_cons, List.map_cons, place_of_build hm, ih]

/-! ### The first fault -/

/-- The fault of a method that cannot be made, with the endpoint that it is made for. -/
def Endpoint.locate (e : Endpoint) (fault : Fault) : Fault :=
  let id := match e.operation.get "operationId" with | .ok n => n.toValue | .error _ => .null
  fault.locate e.httpMethod e.path id

/-- The methods of the endpoints in front are made one after the other, and the one of the endpoint
behind them cannot be made in the session that they leave. -/
def FailsAt (r : Resolver) (includeResponse : Bool) (s : Session) (before : List Endpoint)
    (e : Endpoint) (fault : Fault) : Prop :=
  ∃ t u, buildEndpoints r includeResponse before s = (.ok (), t) ∧
    e.build r includeResponse t = (.error fault, u)

/-- A step makes the methods of the endpoints, one after the other, or ends with a fault; if that is
reported, it comes from the first endpoint whose method cannot be made. -/
structure VisitsFrom (r : Resolver) (includeResponse : Bool) (es : List Endpoint) (s : Session)
    (out : Except Fault Unit × Session) : Prop where
  all : out.1 = .ok () → buildEndpoints r includeResponse es s = (.ok (), out.2)
  fault : ∀ report, out.1 = .error (.reported report) → ∃ before e after fault,
    es = before ++ e :: after ∧ FailsAt r includeResponse s before e fault ∧
      e.locate fault = .reported report

/-- That holds in every session. -/
def Visits (r : Resolver) (includeResponse : Bool) (es : List Endpoint) (m : Build Unit) : Prop :=
  ∀ s, VisitsFrom r includeResponse es s (m s)

theorem buildEndpoints_append (before after : List Endpoint) :
    buildEndpoints r includeResponse (before ++ after) =
      buildEndpoints r includeResponse before >>= fun _ =>
        buildEndpoints r includeResponse after := by
  induction before with
  | nil => rfl
  | cons e before ih =>
    rw [List.cons_append, buildEndpoints, ih, buildEndpoints, Build.bind_assoc]

namespace Visits

theorem pure : Visits r includeResponse [] (Pure.pure ()) := fun _ =>
  { all := fun _ => rfl
    fault := nofun }

/-- A fault that is not reported ends the work before any endpoint. -/
theorem fail {es : List Endpoint} {fault : Fault} (h : fault.cause? = none) :
    Visits r includeResponse es (Build.fail fault) := fun _ =>
  { all := nofun
    fault := fun _ heq => by
      cases heq
      cases h }

theorem bind {es es' : List Endpoint} {m k : Build Unit} (hm : Visits r includeResponse es m)
    (hk : Visits r includeResponse es' k) :
    Visits r includeResponse (es ++ es') (m >>= fun _ => k) := by
  intro s
  have hfirst := hm s
  rw [bind_apply]
  rcases hrun : m s with ⟨fault | ⟨⟩, t⟩
  · rw [hrun] at hfirst
    refine { all := nofun, fault := fun report h => ?_ }
    obtain ⟨before, e, after, fault, rfl, hfails⟩ := hfirst.fault report h
    exact ⟨before, e, after ++ es', fault, List.append_assoc _ _ _, hfails⟩
  · rw [hrun] at hfirst
    have hdone := hfirst.all rfl
    have hrest := hk t
    refine { all := fun h => ?_, fault := fun report h => ?_ }
    · rw [buildEndpoints_append, bind_apply, hdone]
      exact hrest.all h
    · obtain ⟨before, e, after, fault, rfl, ⟨u, v, hbefore, he⟩, hlocate⟩ := hrest.fault report h
      refine ⟨es ++ before, e, after, fault, (List.append_assoc _ _ _).symm,
        ⟨u, v, ?_, he⟩, hlocate⟩
      rw [buildEndpoints_append, bind_apply, hdone]
      exact hbefore

/-- An endpoint is located when its method cannot be made. -/
theorem endpoint (e : Endpoint) : Visits r includeResponse [e]
    (locating e.httpMethod e.path e.operation (e.build r includeResponse) >>= fun _ =>
      Pure.pure ()) := by
  intro s
  rw [bind_apply, locating]
  rcases hbuild : e.build r includeResponse s with ⟨fault | m, t⟩
  · refine { all := nofun, fault := fun report h => ?_ }
    exact ⟨[], e, [], fault, rfl, ⟨s, t, rfl, hbuild⟩, Except.error.inj h⟩
  · refine { all := fun _ => ?_, fault := nofun }
    rw [buildEndpoints, bind_apply, hbuild]
    rfl

end Visits

theorem buildOperations_visits (path : Scalar) (pathItem : Node) (methods : List String) :
    Visits r includeResponse (endpointsAt path pathItem methods)
      (buildOperations r includeResponse path pathItem methods) := by
  induction methods with
  | nil => exact .pure
  | cons httpMethod methods ih =>
    have hkind : KindFaults fun fault => fault.cause? = none := ⟨rfl⟩
    rw [buildOperations]
    cases hget : pathItem.get httpMethod with
    | error fault => exact .fail (hkind.get pathItem httpMethod hget)
    | ok operation =>
      change Visits r includeResponse _ (if operation.isNull = true then _ else _)
      split_ifs with hnull
      · rw [endpointsAt_cons (by rw [Node.operation?, hget]; exact if_pos hnull)]
        exact ih
      · have hoperation : pathItem.operation? httpMethod = some operation := by
          rw [Node.operation?, hget]
          exact if_neg hnull
        rw [endpointsAt_cons_some hoperation]
        have hvisits : Visits r includeResponse [{ path, pathItem, httpMethod, operation }] _ :=
          .endpoint _
        have hboth := hvisits.bind ih
        rw [Build.bind_assoc] at hboth
        exact hboth

variable (r includeResponse) in
/-- The methods of paths are made along their endpoints. -/
theorem buildPaths_visits (paths : List (Scalar × Node)) :
    Visits r includeResponse (endpoints paths) (buildPaths r includeResponse paths) := by
  induction paths with
  | nil => exact .pure
  | cons e paths ih => exact (buildOperations_visits e.1 e.2.orEmpty httpMethods).bind ih

end ServiceContract
