import ServiceContract.Contract.Build
import ServiceContract.Proofs.Schema.Alike

/-!
# Operations in similar documents

In documents that are similar the same is done for an operation: its parameters are alike, and so
are the contents of its bodies, and what they are made from resolves in the same way.

## Main results

* `buildPaths_alike`: the methods of paths do not depend on the order of entries.
-/

namespace ServiceContract

open Node

/-! ### Parameters -/

/-- The entries have the same key, and their values are alike. -/
def AlikeEntry {κ : Type} (p q : κ × Node) : Prop :=
  p.1 = q.1 ∧ Alike p.2 q.2

theorem insertParameter_alike (key : ParameterKey) {n m : Node} (hn : Alike n m)
    {ps qs : List (ParameterKey × Node)} (h : List.Forall₂ AlikeEntry ps qs) :
    List.Forall₂ AlikeEntry (insertParameter key n ps) (insertParameter key m qs) := by
  induction h with
  | nil => exact .cons ⟨rfl, hn⟩ .nil
  | @cons p q ps qs hp hps ih =>
    rw [insertParameter, insertParameter, hp.1]
    split_ifs
    · exact .cons ⟨rfl, hn⟩ hps
    · exact .cons hp ih

namespace Node.Alike

variable {n m : Node} (h : Alike n m)
include h

theorem parameterName : parameterName n = parameterName m := by
  rw [ServiceContract.parameterName, ServiceContract.parameterName, h.get?]

theorem parameterKey : parameterKey n = parameterKey m := by
  rw [ServiceContract.parameterKey, ServiceContract.parameterKey, parameterLocation,
    parameterLocation, h.parameterName, h.get?]

end Node.Alike

namespace Document.Similar

variable {doc doc' : Document} (h : doc.Similar doc')
include h

theorem mergeParameters {ps qs : List (ParameterKey × Node)} (hps : List.Forall₂ AlikeEntry ps qs)
    (entries : List Node) :
    Matches (List.Forall₂ AlikeEntry) (mergeParameters doc ps entries)
      (mergeParameters doc' qs entries) := by
  induction entries generalizing ps qs with
  | nil => exact .ok hps
  | cons entry entries ih =>
    rw [ServiceContract.mergeParameters, ServiceContract.mergeParameters]
    refine (h.follow entry).bind fun n m hn => ?_
    rw [hn.parameterKey]
    exact .bind_right fun key => ih (insertParameter_alike key hn hps)

theorem collectKeyedParameters (pathItem operation : Node) :
    Matches (List.Forall₂ AlikeEntry) (collectKeyedParameters doc pathItem operation)
      (collectKeyedParameters doc' pathItem operation) :=
  .bind_right fun _ => .bind_right fun _ => .bind_right fun _ => .bind_right fun _ =>
    h.mergeParameters .nil _

/-! ### Contents -/

theorem successContent (operation : Node) :
    successContent doc operation = successContent doc' operation := by
  rw [ServiceContract.successContent, ServiceContract.successContent]
  refine bind_congr fun responses => ?_
  split_ifs
  · rfl
  · refine bind_congr fun es => ?_
    split
    · rfl
    · refine bind_congr fun response => (h.follow _).bind_eq fun n m hn => ?_
      rw [hn.get]

theorem requestBody (operation : Node) :
    requestBody doc operation = requestBody doc' operation := by
  rw [ServiceContract.requestBody, ServiceContract.requestBody]
  refine bind_congr fun body => ?_
  split_ifs
  · rfl
  · refine (h.follow _).bind_eq fun n m hn => ?_
    rw [hn.get, hn.get]

end Document.Similar

/-! ### Methods -/

variable {r r' : Resolver} (h : r.doc.Similar r'.doc) (hr : r.primitives = r'.primitives)

theorem noteSkipped_alike {ps qs : List (String × Node)} (h : List.Forall₂ AlikeEntry ps qs) :
    noteSkipped ps = noteSkipped qs := by
  induction h with
  | nil => rfl
  | @cons p q ps qs hp _ ih =>
    obtain ⟨location, n⟩ := p
    obtain ⟨_, m⟩ := q
    obtain ⟨rfl, hn⟩ := hp
    rw [noteSkipped, noteSkipped, hn.get, ih]

include h hr

theorem bindParameter_alike (owner : String) (location : Location) {n m : Node} (hn : Alike n m) :
    bindParameter r owner location n = bindParameter r' owner location m := by
  simp only [bindParameter, hn.parameterName, hn.get, Resolver.resolve_alike h hr (.refl _)]

theorem bindAll_alike (owner : String) (location : Location) {ns ms : List Node}
    (hn : List.Forall₂ Alike ns ms) :
    bindAll r owner location ns = bindAll r' owner location ms := by
  induction hn with
  | nil => rfl
  | cons hn _ ih => rw [bindAll, bindAll, bindParameter_alike h hr owner location hn, ih]

theorem bindLocations_alike (owner : String) {ps qs : List (String × Node)}
    (hp : List.Forall₂ AlikeEntry ps qs) (locations : List Location) :
    bindLocations r owner ps locations = bindLocations r' owner qs locations := by
  induction locations with
  | nil => rfl
  | cons location locations ih =>
    have hhere : List.Forall₂ Alike ((ps.filter fun p => p.1 == location.name).map Prod.snd)
        ((qs.filter fun p => p.1 == location.name).map Prod.snd) := by
      refine List.rel_map (fun p q hp => hp.2) (List.rel_filter (fun p q hp => ?_) hp)
      dsimp only
      rw [hp.1]
    rw [bindLocations, bindLocations, bindAll_alike h hr owner location hhere, ih]

theorem bindParameters_alike (pathItem operation : Node) (owner : String) :
    bindParameters r pathItem operation owner = bindParameters r' pathItem operation owner := by
  refine (h.collectKeyedParameters pathItem operation).lift_bind_eq fun ps qs hps => ?_
  have hkeyed : List.Forall₂ AlikeEntry (ps.map fun p => (p.1.location, p.2))
      (qs.map fun p => (p.1.location, p.2)) := by
    rw [List.forall₂_map_left_iff, List.forall₂_map_right_iff]
    exact hps.imp fun p q hp => ⟨congrArg ParameterKey.location hp.1, hp.2⟩
  dsimp only
  rw [noteSkipped_alike hkeyed]
  exact bind_congr fun _ => bindLocations_alike h hr owner hkeyed boundLocations

theorem buildMethod_alike (includeResponse : Bool) (path : Scalar) (pathItem : Node)
    (httpMethod : String) (operation : Node) :
    buildMethod r includeResponse path pathItem httpMethod operation =
      buildMethod r' includeResponse path pathItem httpMethod operation := by
  simp only [buildMethod, buildResult, buildBody, h.successContent, h.requestBody,
    bindParameters_alike h hr, Resolver.resolve_alike h hr (.refl _)]

theorem buildOperations_alike (includeResponse : Bool) (path : Scalar) (pathItem : Node)
    (methods : List String) :
    buildOperations r includeResponse path pathItem methods =
      buildOperations r' includeResponse path pathItem methods := by
  induction methods with
  | nil => rfl
  | cons httpMethod methods ih =>
    simp only [buildOperations, ih, buildMethod_alike h hr]

/-- The same methods are made for paths in similar documents. -/
theorem buildPaths_alike (includeResponse : Bool) (paths : List (Scalar × Node)) :
    buildPaths r includeResponse paths = buildPaths r' includeResponse paths := by
  induction paths with
  | nil => rfl
  | cons e paths ih =>
    obtain ⟨path, pathItem⟩ := e
    rw [buildPaths, buildPaths, buildOperations_alike h hr, ih]

end ServiceContract
