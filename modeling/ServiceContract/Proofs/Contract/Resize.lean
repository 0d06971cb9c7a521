import ServiceContract.Proofs.Contract.Run
import ServiceContract.Proofs.Operation.Shared
import ServiceContract.Proofs.Schema.Fuel

/-!
# Contracts under larger bounds

The size of a document is a bound on how far references and schemas are followed, and nothing else.
So a larger size does not change the contract of a document, unless no contract is made because
something is endless. In a document without links that is no exception.

## Main results

* `Resolver.buildMethod_resize`: the method of an operation.
* `Contract.build_resize`: the contract of a document.
* `Contract.build_resize_of_isTree`: the contract of a document without links.
-/

namespace ServiceContract

open Build

/-! ### Parameters and contents -/

namespace Document

variable {doc : Document} {size : Nat} (hsize : doc.size ≤ size)
include hsize

theorem mergeParameters_resize (merged : List (ParameterKey × Node)) (entries : List Node) :
    Prolonged (mergeParameters doc merged entries)
      (mergeParameters (doc.resize size) merged entries) := by
  induction entries generalizing merged with
  | nil => exact .refl _
  | cons entry entries ih =>
    exact (follow_resize hsize entry).bind fun parameter => .bind_right fun key => ih _

theorem collectKeyedParameters_resize (pathItem operation : Node) :
    Prolonged (collectKeyedParameters doc pathItem operation)
      (collectKeyedParameters (doc.resize size) pathItem operation) := by
  refine .bind_right fun shared => .bind_right fun ns => .bind_right fun own =>
    .bind_right fun ms => ?_
  exact mergeParameters_resize hsize [] (ns ++ ms)

theorem successContent_resize (operation : Node) :
    Prolonged (successContent doc operation) (successContent (doc.resize size) operation) := by
  refine .bind_right fun responses => ?_
  split_ifs
  · exact .refl _
  refine .bind_right fun es => ?_
  cases leastStatus (es.filter fun e => isSuccess e.1) with
  | none => exact .refl _
  | some e => exact .bind_right fun response => (follow_resize hsize _).bind fun _ => .refl _

theorem requestBody_resize (operation : Node) :
    Prolonged (requestBody doc operation) (requestBody (doc.resize size) operation) := by
  refine .bind_right fun body => ?_
  split_ifs
  · exact .refl _
  · exact (follow_resize hsize body).bind fun _ => .refl _

end Document

/-! ### Methods -/

/-- What is endless stays so wherever it is met. -/
theorem Build.Outlasts.locating {α : Type} {m m' : Build α} (h : Outlasts m m')
    (httpMethod : String) (path : Scalar) (operation : Node) :
    Outlasts (locating httpMethod path operation m) (locating httpMethod path operation m') := by
  intro s
  unfold ServiceContract.locating
  rcases h s with hend | hsame
  · left
    rw [eq_of_endless hend]
    rfl
  · exact .inr (by rw [hsame])

namespace Resolver

variable {r : Resolver} {size : Nat} (hsize : r.doc.size ≤ size)
include hsize

theorem bindAll_resize (owner : String) (location : Location) (parameters : List Node) :
    Outlasts (bindAll r owner location parameters)
      (bindAll (r.resize size) owner location parameters) := by
  induction parameters with
  | nil => exact .refl _
  | cons parameter parameters ih =>
    have hparameter : Outlasts (bindParameter r owner location parameter)
        (bindParameter (r.resize size) owner location parameter) := by
      refine .bind_right fun name => .bind_right fun wireName => .bind_right fun schema => ?_
      exact (resolve_resize hsize _ _).bind fun type => .refl _
    exact hparameter.bind fun binding => ih.bind fun bindings => .refl _

theorem bindLocations_resize (owner : String) (parameters : List (String × Node))
    (locations : List Location) :
    Outlasts (bindLocations r owner parameters locations)
      (bindLocations (r.resize size) owner parameters locations) := by
  induction locations with
  | nil => exact .refl _
  | cons location locations ih =>
    exact (bindAll_resize hsize owner location _).bind fun bindings => ih.bind fun rest => .refl _

theorem buildResult_resize (operation : Node) (owner : String) :
    Outlasts (buildResult r operation owner) (buildResult (r.resize size) operation owner) := by
  refine .lift_bind (Document.successContent_resize hsize operation) fun content =>
    .bind_right fun media => ?_
  cases media with
  | none => exact .refl _
  | some media =>
    exact .bind_right fun schema => (resolve_resize hsize _ _).bind fun type => .refl _

theorem buildBody_resize (operation : Node) (owner : String) :
    Outlasts (buildBody r operation owner) (buildBody (r.resize size) operation owner) := by
  refine .lift_bind (Document.requestBody_resize hsize operation) fun body => ?_
  cases body with
  | none => exact .refl _
  | some body => exact (resolve_resize hsize _ _).bind fun type => .refl _

theorem buildMethod_resize (includeResponse : Bool) (path : Scalar) (pathItem : Node)
    (httpMethod : String) (operation : Node) :
    Outlasts (buildMethod r includeResponse path pathItem httpMethod operation)
      (buildMethod (r.resize size) includeResponse path pathItem httpMethod operation) := by
  have hbound (owner : String) : Outlasts (bindParameters r pathItem operation owner)
      (bindParameters (r.resize size) pathItem operation owner) := by
    refine .lift_bind (Document.collectKeyedParameters_resize hsize pathItem operation)
      fun keyed => ?_
    exact .bind_right fun _ => bindLocations_resize hsize owner _ boundLocations
  refine .bind_right fun operationId => ?_
  by_cases hempty : operationId.isEmpty = true
  · rw [if_pos hempty, if_pos hempty]
    exact .refl _
  · rw [if_neg hempty, if_neg hempty]
    refine (buildResult_resize hsize operation _).bind fun result => ?_
    refine (buildBody_resize hsize operation _).bind fun body => ?_
    exact (hbound _).bind fun bound => .refl _

theorem buildOperations_resize (includeResponse : Bool) (path : Scalar) (pathItem : Node)
    (methods : List String) :
    Outlasts (buildOperations r includeResponse path pathItem methods)
      (buildOperations (r.resize size) includeResponse path pathItem methods) := by
  induction methods with
  | nil => exact .refl _
  | cons httpMethod methods ih =>
    refine .bind_right fun operation => ?_
    by_cases hnull : operation.isNull = true
    · rw [if_pos hnull, if_pos hnull]
      exact ih
    · rw [if_neg hnull, if_neg hnull]
      have hmethod := buildMethod_resize hsize includeResponse path pathItem httpMethod operation
      exact (hmethod.locating httpMethod path operation).bind fun _ => ih

theorem buildPaths_resize (includeResponse : Bool) (paths : List (Scalar × Node)) :
    Outlasts (buildPaths r includeResponse paths)
      (buildPaths (r.resize size) includeResponse paths) := by
  induction paths with
  | nil => exact .refl _
  | cons e paths ih =>
    exact (buildOperations_resize hsize includeResponse e.1 e.2.orEmpty httpMethods).bind fun _ =>
      ih

end Resolver

/-- A larger size does not change the contract, unless something is endless. -/
theorem Contract.build_resize {doc : Document} {size : Nat} (hsize : doc.size ≤ size)
    (options : Options) :
    Prolonged (build doc options) (build (doc.resize size) options) := by
  rw [build_eq, build_eq]
  refine .bind_right fun name => .bind_right fun title => .bind_right fun version => ?_
  refine .bind_right fun start => .bind_right fun paths => ?_
  have hpaths : Outlasts (buildPaths (resolver doc options) options.includeResponse paths)
      (buildPaths (resolver (doc.resize size) options) options.includeResponse paths) :=
    Resolver.buildPaths_resize hsize options.includeResponse paths
  rcases hpaths start with hend | hsame
  · left
    rw [eq_of_endless hend, ofRun]
  · exact .inr (by rw [hsame])

/-! ### Documents without links -/

/-- A document without links has all of its parts in common with itself under a larger size. -/
theorem Document.IsTree.shares_resize {doc : Document} (h : doc.IsTree) {size : Nat}
    (hsize : doc.size ≤ size) :
    Shares doc.Part doc (doc.resize size) where
  tree := h
  tree' := ⟨h.root, Nat.le_trans h.size hsize⟩
  part := id
  part' hn := by
    induction hn with
    | root => exact .root
    | blank hblank => exact .blank hblank
    | key a k => exact .key a k
    | item _ hn ih => exact .item ih hn
    | entry _ he ih => exact .entry ih he
  closed := doc.part_hereditary.toClosed
  resolve _ _ _ := rfl

/-- A larger size does not change the contract of a document without links, nor what no contract is
made for. -/
theorem Contract.build_resize_of_isTree {doc : Document} (h : doc.IsTree) {size : Nat}
    (hsize : doc.size ≤ size) (options : Options) :
    build doc options = build (doc.resize size) options := by
  have hshares :
      Resolver.Shares doc.Part (resolver doc options) (resolver (doc.resize size) options) :=
    ⟨h.shares_resize hsize, rfl⟩
  rw [build_eq, build_eq]
  refine bind_congr fun name => bind_congr fun title => bind_congr fun version =>
    bind_congr fun start => ?_
  refine except_bind_congr rfl fun paths hpaths => ?_
  obtain ⟨value, hvalue, hpaths⟩ := except_bind_eq_ok.mp hpaths
  have hclosed := doc.part_hereditary.toClosed
  rw [hshares.buildPaths options.includeResponse fun e he =>
    hclosed.entriesIfAny (hclosed.get .root hvalue) hpaths he]

end ServiceContract
