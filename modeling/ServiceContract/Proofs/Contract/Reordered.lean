import ServiceContract.Proofs.Contract.PathOrder
import ServiceContract.Proofs.Document.Reordered
import ServiceContract.Proofs.Operation.Alike

/-!
# Contracts of documents with paths in another order

Whether a document has a contract may depend on the order of its paths: a path that comes to an
alias before the declaration that leads back to it fails, unless another path has come to the
declaration before. That is all that can go wrong, and it cannot go wrong exactly if each path can
be built by itself.

## Main definitions

* `Contract.Builds`: the document has a contract.
* `Contract.BuildsPaths`: some paths can be built for a document.

## Main results

* `Contract.builds_reordered_iff`: when the order of the paths does not matter.
-/

namespace ServiceContract

open Build

namespace Contract

/-- The document has a contract under the chosen options. -/
def Builds (doc : Document) (options : Options) : Prop :=
  ∃ c, build doc options = .ok c

/-- A contract with a name, a title and a version can be built for the document from the given
paths. -/
def BuildsPaths (doc : Document) (options : Options) (paths : List (Scalar × Node)) : Prop :=
  ∃ name title version start s, contractName doc options.name = .ok name ∧
    infoText doc "title" = .ok title ∧ infoText doc "version" = .ok version ∧
      Session.start doc = .ok start ∧
        buildPaths (resolver doc options) options.includeResponse paths start = (.ok (), s)

variable {doc doc' : Document} {options : Options} {paths : List (Scalar × Node)}

/-- A document has a contract if it can be built from its paths. -/
theorem builds_iff (hpaths : documentPaths doc = .ok paths) :
    Builds doc options ↔ BuildsPaths doc options paths := by
  constructor
  · rintro ⟨c, h⟩
    obtain ⟨name, title, version, start, _, s, hname, htitle, hversion, hstart, hpaths', hrun, -⟩ :=
      build_eq_ok_iff.mp h
    cases hpaths.symm.trans hpaths'
    exact ⟨name, title, version, start, s, hname, htitle, hversion, hstart, hrun⟩
  · rintro ⟨name, title, version, start, s, hname, htitle, hversion, hstart, hrun⟩
    exact ⟨_, build_eq_ok_iff.mpr
      ⟨name, title, version, start, paths, s, hname, htitle, hversion, hstart, hpaths, hrun, rfl⟩⟩

/-- A path that comes first can be built by itself. -/
theorem BuildsPaths.alone {e : Scalar × Node} (h : BuildsPaths doc options (e :: paths)) :
    BuildsPaths doc options [e] := by
  obtain ⟨name, title, version, start, s, hname, htitle, hversion, hstart, hrun⟩ := h
  obtain ⟨u, hu⟩ := alone_of_buildPaths hrun
  exact ⟨name, title, version, start, u, hname, htitle, hversion, hstart, hu⟩

/-- Paths of which each can be built by itself can be built together, if the document has what a
contract needs besides. -/
theorem BuildsPaths.of_alone {qs : List (Scalar × Node)} (hdoc : doc.Addressed)
    (hp : ∀ e ∈ qs, doc.Part e.2) (h : BuildsPaths doc options paths)
    (halone : ∀ e ∈ qs, BuildsPaths doc options [e]) : BuildsPaths doc options qs := by
  obtain ⟨name, title, version, start, s, hname, htitle, hversion, hstart, -⟩ := h
  have hruns : ∀ e ∈ qs, ∃ u,
      buildPaths (resolver doc options) options.includeResponse [e] start = (.ok (), u) := by
    intro e he
    obtain ⟨_, _, _, start', u, -, -, -, hstart', hu⟩ := halone e he
    cases hstart.symm.trans hstart'
    exact ⟨u, hu⟩
  obtain ⟨t, ht⟩ := buildPaths_of_alone hdoc hstart hp hruns (Session.start_settled hstart)
  exact ⟨name, title, version, start, t, hname, htitle, hversion, hstart, ht⟩

theorem buildPaths_of_sameRoots {b : Address} {es es' : List (Scalar × Node)}
    (h : doc.SameRoots doc' b es es') (includeResponse : Bool) :
    buildPaths (resolver doc options) includeResponse paths =
      buildPaths (resolver doc' options) includeResponse paths := by
  have hsimilar : (resolver doc options).doc.Similar (resolver doc' options).doc := h.similar
  exact buildPaths_alike hsimilar rfl includeResponse paths

/-- The same paths can be built for a document with its paths in another order. -/
theorem buildsPaths_of_sameRoots {b : Address} {es es' : List (Scalar × Node)}
    (h : doc.SameRoots doc' b es es') :
    BuildsPaths doc options paths ↔ BuildsPaths doc' options paths := by
  simp only [BuildsPaths, h.contractName, h.infoText, h.start, buildPaths_of_sameRoots h]

theorem part_of_documentPaths (hpaths : documentPaths doc = .ok paths) :
    ∀ e ∈ paths, doc.Part e.2 := by
  obtain ⟨n, hn, h⟩ := except_bind_eq_ok.mp hpaths
  have hP := Document.part_hereditary doc
  exact fun e he => hP.entriesIfAny (hP.get hP.root hn) h he

/-- What is built for a document with its paths in another order is built from the paths in this
order. -/
theorem builds_reordered (hdoc : doc.WellFormed) (options : Options) (h : doc.Reordered doc') :
    ∃ paths paths', documentPaths doc = .ok paths ∧ documentPaths doc' = .ok paths' ∧
      paths.Perm paths' ∧ (Builds doc' options ↔ BuildsPaths doc options paths') := by
  obtain ⟨b, es, es', hroots⟩ := h.sameRoots hdoc
  refine ⟨_, _, hroots.documentPaths, hroots.documentPaths', hroots.perm.map _, ?_⟩
  rw [builds_iff hroots.documentPaths', buildsPaths_of_sameRoots hroots]

/-- What goes wrong in another order is that a resolution does not come to an end. -/
theorem isCircular_of_build {fault : Fault} (hdoc : doc.WellFormed) (h : doc.Reordered doc')
    (hb : Builds doc options) (hfault : build doc' options = .error fault) : fault.IsCircular := by
  obtain ⟨b, es, es', hroots⟩ := h.sameRoots hdoc
  obtain ⟨name, title, version, start, s, hname, htitle, hversion, hstart, hrun⟩ :=
    (builds_iff hroots.documentPaths).mp hb
  rw [hroots.contractName] at hname
  rw [hroots.infoText] at htitle hversion
  rw [build_eq_ofRun hname htitle hversion (hroots.start ▸ hstart) hroots.documentPaths',
    ← buildPaths_of_sameRoots hroots] at hfault
  obtain ⟨t, hrun'⟩ := ofRun_eq_error.mp hfault
  refine isCircular_of_buildPaths hdoc.toAddressed (Session.start_settled hstart)
    (part_of_documentPaths hroots.documentPaths) hrun (fun e he => ?_) hrun'
  exact (hroots.perm.map _).mem_iff.mpr he

/-- The documents with the same paths in another order all have a contract, or none of them has one,
if and only if each path can be built by itself as soon as one of them has a contract. Where one
document has a contract and another one has none, the fault is that a resolution does not come to an
end. -/
theorem builds_reordered_iff (hdoc : doc.WellFormed) (options : Options) :
    ((∀ doc', doc.Reordered doc' → (Builds doc options ↔ Builds doc' options)) ↔
      ((∃ doc', doc.Reordered doc' ∧ Builds doc' options) →
        ∀ paths, documentPaths doc = .ok paths → ∀ e ∈ paths, BuildsPaths doc options [e])) ∧
    ∀ doc' fault, doc.Reordered doc' → Builds doc options → build doc' options = .error fault →
      fault.IsCircular := by
  refine ⟨⟨?_, ?_⟩, fun doc' fault h hb hfault => isCircular_of_build hdoc h hb hfault⟩
  · intro hall ⟨doc₁, h₁, hb₁⟩ paths hpaths e he
    obtain ⟨first, rest, hfirst, hrest⟩ := h₁.exists_first hdoc hpaths he
    obtain ⟨_, paths', -, hpaths', -, hiff⟩ := builds_reordered hdoc options hfirst
    cases hrest.symm.trans hpaths'
    have hb := (hall first hfirst).mp ((hall doc₁ h₁).mpr hb₁)
    exact (hiff.mp hb).alone
  · intro halone doc' h
    obtain ⟨paths, paths', hpaths, -, hperm, hiff⟩ := builds_reordered hdoc options h
    have hp := part_of_documentPaths hpaths
    rw [hiff, builds_iff hpaths]
    constructor
    · intro hb
      refine hb.of_alone hdoc.toAddressed (fun e he => hp e (hperm.mem_iff.mpr he)) fun e he => ?_
      exact halone ⟨doc, h.self, (builds_iff hpaths).mpr hb⟩ paths hpaths e (hperm.mem_iff.mpr he)
    · intro hb
      exact hb.of_alone hdoc.toAddressed hp (halone ⟨doc', h, hiff.mpr hb⟩ paths hpaths)

/-- A document with the given paths, in which `A` is an alias for the lists of `B`, and the record
`B` has a field of type `A`. -/
def listedRecord (paths : List (Scalar × Value)) : Document :=
  .ofValue (.map [
    (.text "paths", .map paths),
    (.text "components", .map [(.text "schemas", .map [
      (.text "A", .map [(.text "type", .text "array"),
        (.text "items", .map [(.text "$ref", .text "#/components/schemas/B")])]),
      (.text "B", .map [(.text "properties", .map [
        (.text "a", .map [(.text "$ref", .text "#/components/schemas/A")])])])])])])

/-- A path with an operation whose result has the type of a component. -/
def resultPath (path name component : String) : Scalar × Value :=
  (.text path, .map [(.text "get", .map [
    (.text "operationId", .text name),
    (.text "responses", .map [(.text "200", .map [(.text "content", .map [
      (.text "application/json", .map [(.text "schema", .map [
        (.text "$ref", .text ("#/components/schemas/" ++ component))])])])])])])])

/-- The path that comes to the alias stands first. -/
def aliasFirst : Document :=
  listedRecord [resultPath "/a" "getA" "A", resultPath "/b" "getB" "B"]

/-- The path that comes to the record stands first. -/
def recordFirst : Document :=
  listedRecord [resultPath "/b" "getB" "B", resultPath "/a" "getA" "A"]

theorem recordFirst_wellFormed : recordFirst.WellFormed :=
  Document.wellFormed_ofValue (by decide)

theorem recordFirst_reordered : recordFirst.Reordered aliasFirst :=
  ⟨.path [], [], .path [.key (.text "paths")], _, _, _, rfl, rfl, .swap _ _ _, rfl⟩

theorem builds_recordFirst : Builds recordFirst .standard := by
  have hrun : (build recordFirst .standard).map (fun c => c.declarations.map Declaration.name) =
      .ok ["B"] := by
    rfl
  cases h : build recordFirst .standard with
  | error fault =>
    rw [h] at hrun
    cases hrun
  | ok c => exact ⟨c, h⟩

theorem build_aliasFirst : ∃ fault, build aliasFirst .standard = .error fault := by
  have hrun : (build aliasFirst .standard).toOption.isSome = false := by
    rfl
  cases h : build aliasFirst .standard with
  | error fault => exact ⟨fault, rfl⟩
  | ok c =>
    rw [h] at hrun
    cases hrun

theorem builds_reordered_iff_recordFirst :
    recordFirst.WellFormed ∧ recordFirst.Reordered aliasFirst ∧ Builds recordFirst .standard ∧
      ∃ fault, build aliasFirst .standard = .error fault ∧ fault.IsCircular := by
  obtain ⟨fault, hfault⟩ := build_aliasFirst
  have hcircular := (builds_reordered_iff recordFirst_wellFormed .standard).2 aliasFirst fault
    recordFirst_reordered builds_recordFirst hfault
  exact ⟨recordFirst_wellFormed, recordFirst_reordered, builds_recordFirst, fault,
    hfault, hcircular⟩

/-- Whether a document has a contract depends on the order of its paths. -/
theorem not_builds_reordered_aliasFirst :
    ¬ ∀ doc doc' options, doc.WellFormed → doc.Reordered doc' →
    (Builds doc options ↔ Builds doc' options) := by
  intro hall
  have hiff := hall recordFirst aliasFirst .standard recordFirst_wellFormed recordFirst_reordered
  obtain ⟨c, hc⟩ := hiff.mp builds_recordFirst
  obtain ⟨fault, hfault⟩ := build_aliasFirst
  cases hc.symm.trans hfault

end Contract

end ServiceContract
