import ServiceContract.Proofs.Contract.Report
import ServiceContract.Proofs.Contract.Run
import ServiceContract.Proofs.Document.PathItem
import ServiceContract.Proofs.Session.Start

/-!
# Methods and reports of documents

A contract has one method for each endpoint of its document. If it cannot be built for a reported
fault, the report names the first endpoint whose method cannot be made: what is read before the
paths gives no report.

## Main results

* `Contract.build_eq_reported`: reports come from the making of methods.
* `Contract.build_visits_endpoints`: the methods of a contract, or the report of the first fault.
-/

namespace ServiceContract

open Build

/-! ### What comes before the paths -/

namespace KindFaults

variable {P : Fault → Prop} (hP : KindFaults P)
include hP

theorem infoText (doc : Document) (key : String) : FailsWith P (infoText doc key) := by
  refine (hP.get doc.root _).bind fun info _ => (hP.get? info.orEmpty key).bind fun found _ => ?_
  cases found with
  | none => exact .ok _
  | some n => exact hP.plainText n.toValue

theorem contractName (doc : Document) (chosen : Option String) :
    FailsWith P (contractName doc chosen) := by
  refine (hP.infoText doc _).bind fun title _ => ?_
  cases chosen with
  | none => exact .ok _
  | some name => exact .ok _

theorem documentPaths (doc : Document) : FailsWith P (documentPaths doc) :=
  (hP.get doc.root _).bind fun paths _ => hP.entriesIfAny paths

theorem start (doc : Document) : FailsWith P (Session.start doc) := by
  have hclaims (keys : List Node) : Fails P (Session.claimComponents keys) := by
    induction keys with
    | nil => exact .pure _
    | cons key keys ih =>
      refine .lift_bind (hP.asText key) fun text => .bind (fun s => ?_) fun _ => ih
      exact .ok _
  have hnodes : FailsWith P (Session.componentNodes doc) :=
    (hP.get doc.root _).bind fun components _ => (hP.get components.orEmpty _).bind fun schemas _ =>
      hP.itemsIfAny schemas
  have hrun : Fails P (do Session.claimComponents (← Session.componentNodes doc) : Build Unit) :=
    .lift_bind hnodes hclaims
  intro fault h
  unfold Session.start at h
  split at h
  · cases h
  · rename_i fault' t heq
    cases h
    exact hrun Session.blank (by rw [heq])

end KindFaults

namespace Contract

/-- A reported fault comes from the making of methods. -/
theorem build_eq_reported {doc : Document} {options : Options} {report : Report}
    (h : build doc options = .error (.reported report)) : ∃ start paths t,
      Session.start doc = .ok start ∧ documentPaths doc = .ok paths ∧
        buildPaths (resolver doc options) options.includeResponse paths start =
          (.error (.reported report), t) := by
  have hkind : KindFaults fun fault => fault ≠ .reported report := ⟨nofun⟩
  rw [build_eq] at h
  obtain ⟨name, -, h⟩ := (hkind.contractName doc _).bind_eq_error h
  obtain ⟨title, -, h⟩ := (hkind.infoText doc _).bind_eq_error h
  obtain ⟨version, -, h⟩ := (hkind.infoText doc _).bind_eq_error h
  obtain ⟨start, hstart, h⟩ := (hkind.start doc).bind_eq_error h
  obtain ⟨paths, hpaths, h⟩ := (hkind.documentPaths doc).bind_eq_error h
  obtain ⟨t, hrun⟩ := ofRun_eq_error.mp h
  exact ⟨start, paths, t, hstart, hpaths, hrun⟩

/-- The methods of a contract are made for the endpoints, one for each of them, in sessions with
every invariant that the session at the start has and the making of a method keeps. -/
theorem keeps_build {doc : Document} {options : Options} {c : Contract} {I : Session → Prop}
    {Q : Endpoint → Method → Prop} (h : build doc options = .ok c)
    (hstart : ∀ s, Session.start doc = .ok s → I s)
    (hstep : ∀ e : Endpoint,
      Keeps I (Q e) (e.build (resolver doc options) options.includeResponse)) :
    ∃ paths s, documentPaths doc = .ok paths ∧ I s ∧ c.declarations = s.declarations ∧
      List.Forall₂ Q (endpoints paths) c.methods := by
  obtain ⟨name, title, version, start, paths, s, -, -, -, hs, hpaths, hrun, rfl⟩ :=
    build_eq_ok_iff.mp h
  have hvisits := buildPaths_visits (resolver doc options) options.includeResponse paths start
  rw [hrun] at hvisits
  obtain ⟨hinvariant, ms, hms, hmethods⟩ :=
    keeps_buildEndpoints hstep (hvisits.all rfl) (hstart start hs)
  rw [Session.start_eq hs] at hms
  refine ⟨paths, s, hpaths, hinvariant, rfl, ?_⟩
  change List.Forall₂ _ _ s.methods
  rw [hms]
  exact hmethods

/-- The methods of a contract are made for the endpoints, one for each of them. -/
theorem methods_of_build {doc : Document} {options : Options} {c : Contract}
    (h : build doc options = .ok c) : ∃ paths, documentPaths doc = .ok paths ∧
      List.Forall₂ (Endpoint.Makes (resolver doc options) options.includeResponse) (endpoints paths)
        c.methods := by
  obtain ⟨paths, -, hpaths, -, -, hmethods⟩ :=
    keeps_build h (fun _ _ => trivial) Endpoint.build_keeps_makes
  exact ⟨paths, hpaths, hmethods⟩

/-- The methods of a contract have the HTTP methods and paths of the endpoints. -/
theorem map_place_of_build {doc : Document} {options : Options} {c : Contract}
    (h : build doc options = .ok c) : ∃ paths, documentPaths doc = .ok paths ∧
      c.methods.map Method.place = (endpoints paths).map Endpoint.place := by
  obtain ⟨paths, hpaths, hmakes⟩ := methods_of_build h
  exact ⟨paths, hpaths, map_place_of_makes hmakes⟩

/-- The methods of the contract of a JSON document have the HTTP methods and paths of its endpoints,
in their order and each of them once, whatever the order of the keys inside the path items. If the
building ends with a reported fault, the report names the first endpoint whose method cannot be made
in the session that the endpoints before it leave. -/
theorem build_visits_endpoints {text : String} {v : Value} (hv : Json.read text = .ok v)
    (options : Options) :
    (∀ c, build (.ofValue v) options = .ok c → ∃ paths, documentPaths (.ofValue v) = .ok paths ∧
      c.methods.map Method.place = (endpoints paths).map Endpoint.place ∧
      (c.methods.map Method.place).Nodup ∧
      ∀ v' c', v.ItemsReordered v' → build (.ofValue v') options = .ok c' →
        c'.methods.map Method.place = c.methods.map Method.place) ∧
    ∀ report, build (.ofValue v) options = .error (.reported report) →
      ∃ start paths before e after fault, Session.start (.ofValue v) = .ok start ∧
        documentPaths (.ofValue v) = .ok paths ∧ endpoints paths = before ++ e :: after ∧
        FailsAt (resolver (.ofValue v) options) options.includeResponse start before e fault ∧
        fault.cause? = some report.cause ∧ e.Reported report := by
  have hkeyed := Json.isKeyed_of_read hv
  have htexts := Json.textKeyed_of_read hv
  refine ⟨fun c hc => ?_, fun report hreport => ?_⟩
  · obtain ⟨paths, hpaths, hplaces⟩ := map_place_of_build hc
    refine ⟨paths, hpaths, hplaces, ?_, fun v' c' hreordered hc' => ?_⟩
    · rw [hplaces]
      exact nodup_endpoints (documentPaths_keys hkeyed htexts hpaths).1
    · obtain ⟨paths', hpaths', hplaces'⟩ := map_place_of_build hc'
      rw [hplaces, hplaces',
        map_place_endpoints_congr (hreordered.documentPaths hkeyed hpaths hpaths')]
  · obtain ⟨start, paths, t, hstart, hpaths, hrun⟩ := build_eq_reported hreport
    have hvisits :=
      buildPaths_visits (resolver (.ofValue v) options) options.includeResponse paths start
    rw [hrun] at hvisits
    obtain ⟨before, e, after, fault, hendpoints, hfails, hlocate⟩ := hvisits.fault report rfl
    have hpath : e.path ≠ .null := by
      have hmem : e ∈ endpoints paths :=
        hendpoints ▸ List.mem_append_right before List.mem_cons_self
      obtain ⟨key, hkey⟩ :=
        (documentPaths_keys hkeyed htexts hpaths).2 e.path (path_mem_of_mem_endpoints hmem)
      rw [hkey]
      exact nofun
    obtain ⟨s, u, -, he⟩ := id hfails
    obtain ⟨hcause, hreported⟩ := Endpoint.reported_of_build hpath he hlocate
    exact ⟨start, paths, before, e, after, fault, hstart, hpaths, hendpoints, hfails,
      hcause, hreported⟩

/-- The report of a result that fails with one. -/
def report? {α : Type} : Except Fault α → Option Report
  | .error (.reported report) => some report
  | _ => none

theorem report?_eq_some {α : Type} {x : Except Fault α} {report : Report}
    (h : report? x = some report) :
    x = .error (.reported report) := by
  unfold report? at h
  split at h
  · cases h
    rfl
  · cases h

/-- A JSON text with two operations of one path, the first of which is given. -/
def petsText (put : String) : String :=
  "\x7b\"paths\": \x7b\"/pets\": \x7b\"put\": " ++ put ++
    ", \"get\": \x7b\"operationId\": \"listPets\"\x7d\x7d\x7d\x7d"

/-- The method for `get` comes before the one for `put`, which is what a report names if the
operation has no identifier. -/
theorem build_visits_endpoints_pets :
    (∃ v c, Json.read (petsText "\x7b\"operationId\": \"putPets\"\x7d") = .ok v ∧
      build (.ofValue v) .standard = .ok c ∧ (c.methods.map Method.place).Nodup ∧
      c.methods.map Method.place = [("get", .text "/pets"), ("put", .text "/pets")]) ∧
    ∃ v report, ∃ e : Endpoint, Json.read (petsText "\x7b\x7d") = .ok v ∧
      build (.ofValue v) .standard = .error (.reported report) ∧ e.Reported report ∧
      e.httpMethod = "put" := by
  constructor
  · have hrun : ((Json.read (petsText "\x7b\"operationId\": \"putPets\"\x7d")).toOption.any fun v =>
        (build (.ofValue v) .standard).toOption.any fun c =>
          c.methods.map Method.place == [("get", .text "/pets"), ("put", .text "/pets")]) =
            true := by
      decide +kernel
    obtain ⟨v, hv, hrun⟩ := exists_of_any hrun
    obtain ⟨c, hc, hplaces⟩ := exists_of_any hrun
    obtain ⟨paths, -, -, hnodup, -⟩ := (build_visits_endpoints hv .standard).1 c hc
    exact ⟨v, c, hv, hc, hnodup, beq_iff_eq.mp hplaces⟩
  · have hrun : ((Json.read (petsText "\x7b\x7d")).toOption.any fun v =>
        (report? (build (.ofValue v) .standard)).any fun report =>
          report.place.any fun place => place.httpMethod == some "put") = true := by
      decide +kernel
    obtain ⟨v, hv, hrun⟩ := exists_of_any hrun
    obtain ⟨report, hreport, hrun⟩ := (Option.any_eq_true _ _).mp hrun
    have hbuild := report?_eq_some hreport
    obtain ⟨_, _, _, e, _, _, -, -, -, -, -, hreported⟩ :=
      (build_visits_endpoints hv .standard).2 report hbuild
    obtain ⟨id, -, hplace⟩ := hreported.place
    rw [hplace, Option.any_some, beq_iff_eq] at hrun
    exact ⟨v, report, e, hv, hbuild, hreported, Option.some.inj hrun⟩

end Contract

end ServiceContract
