import ServiceContract.Contract.Build
import ServiceContract.Proofs.Session.Run

/-!
# Contracts that are built

What the building of a contract goes through.

## Main definitions

* `Contract.resolver`: the resolver of a document under the chosen options.
* `Contract.ofRun`: the contract after the making of methods.

## Main results

* `Contract.build_eq`: the steps of a building.
* `Contract.build_eq_ok_iff`: the steps of a building that succeeds.
-/

namespace ServiceContract

open Build

/-- A step that succeeds does so without its place. -/
theorem locating_eq_ok {α : Type} {httpMethod : String} {path : Scalar} {operation : Node}
    {step : Build α} {a : α} {s t : Session} :
    locating httpMethod path operation step s = (.ok a, t) ↔ step s = (.ok a, t) := by
  unfold locating
  rcases step s with ⟨_ | _, _⟩
  · simp
  · rfl

namespace Contract

/-- The resolver of a document under the chosen options. -/
def resolver (doc : Document) (options : Options) : Resolver :=
  { doc, primitives := options.target.primitives }

/-- The contract after the making of methods, or the fault of it. -/
def ofRun (name title version : String) (isInterface : Bool) :
    Except Fault Unit × Session → Except Fault Contract
  | (.error fault, _) => .error fault
  | (.ok (), s) => .ok (.ofSession name title version isInterface s)

/-- A building reads the information about the document, takes the names of the components, reads
the paths and makes their methods. -/
theorem build_eq (doc : Document) (options : Options) :
    build doc options = (do
      let name ← contractName doc options.name
      let title ← infoText doc "title"
      let version ← infoText doc "version"
      let start ← Session.start doc
      let paths ← documentPaths doc
      ofRun name title version options.isInterface
        (buildPaths (resolver doc options) options.includeResponse paths start)) := by
  rw [build, buildFrom]
  cases contractName doc options.name with
  | error fault => rfl
  | ok name =>
    cases infoText doc "title" with
    | error fault => rfl
    | ok title =>
      cases infoText doc "version" with
      | error fault => rfl
      | ok version =>
        cases Session.start doc with
        | error fault => rfl
        | ok start =>
          cases documentPaths doc with
          | error fault => rfl
          | ok paths =>
            change (match buildPaths (resolver doc options) options.includeResponse paths start with
              | (.error fault, s) => (Except.error fault, s.events)
              | (.ok (), s) =>
                  (Except.ok (ofSession name title version options.isInterface s), s.events)).1 =
              ofRun name title version options.isInterface
                (buildPaths (resolver doc options) options.includeResponse paths start)
            rcases buildPaths (resolver doc options) options.includeResponse paths
              start with ⟨_ | _, _⟩
            · rfl
            · rfl

theorem ofRun_eq_ok {name title version : String} {isInterface : Bool}
    {out : Except Fault Unit × Session} {c : Contract} :
    ofRun name title version isInterface out = .ok c ↔
      ∃ s, out = (.ok (), s) ∧ c = .ofSession name title version isInterface s := by
  rcases out with ⟨fault | ⟨⟩, s⟩
  · simp [ofRun]
  · simp [ofRun, eq_comm]

theorem ofRun_eq_error {name title version : String} {isInterface : Bool}
    {out : Except Fault Unit × Session} {fault : Fault} :
    ofRun name title version isInterface out = .error fault ↔
      ∃ s, out = (.error fault, s) := by
  rcases out with ⟨fault | ⟨⟩, s⟩
  · simp [ofRun]
  · simp [ofRun]

/-- Once a contract has a name, a title and a version, the names of the components are texts and
there are paths, all depends on the methods. -/
theorem build_eq_ofRun {doc : Document} {options : Options} {name title version : String}
    {start : Session} {paths : List (Scalar × Node)}
    (hname : contractName doc options.name = .ok name) (htitle : infoText doc "title" = .ok title)
    (hversion : infoText doc "version" = .ok version) (hstart : Session.start doc = .ok start)
    (hpaths : documentPaths doc = .ok paths) :
    build doc options = ofRun name title version options.isInterface
      (buildPaths (resolver doc options) options.includeResponse paths start) := by
  rw [build_eq, hname, htitle, hversion, hstart, hpaths]
  rfl

/-- A contract is built when it has a name, a title and a version, the names of the components are
texts, and the methods of all paths are made, one path after the other. -/
theorem build_eq_ok_iff {doc : Document} {options : Options} {c : Contract} :
    build doc options = .ok c ↔ ∃ name title version start paths s,
      contractName doc options.name = .ok name ∧ infoText doc "title" = .ok title ∧
        infoText doc "version" = .ok version ∧ Session.start doc = .ok start ∧
        documentPaths doc = .ok paths ∧
        buildPaths (resolver doc options) options.includeResponse paths start = (.ok (), s) ∧
        c = .ofSession name title version options.isInterface s := by
  constructor
  · intro h
    rw [build_eq] at h
    obtain ⟨name, hname, h⟩ := except_bind_eq_ok.mp h
    obtain ⟨title, htitle, h⟩ := except_bind_eq_ok.mp h
    obtain ⟨version, hversion, h⟩ := except_bind_eq_ok.mp h
    obtain ⟨start, hstart, h⟩ := except_bind_eq_ok.mp h
    obtain ⟨paths, hpaths, h⟩ := except_bind_eq_ok.mp h
    obtain ⟨s, hrun, rfl⟩ := ofRun_eq_ok.mp h
    exact ⟨name, title, version, start, paths, s, hname, htitle, hversion, hstart,
      hpaths, hrun, rfl⟩
  · rintro ⟨name, title, version, start, paths, s, hname, htitle, hversion, hstart,
      hpaths, hrun, rfl⟩
    rw [build_eq_ofRun hname htitle hversion hstart hpaths, hrun, ofRun]

end Contract

end ServiceContract
