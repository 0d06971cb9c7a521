import ServiceContract.Proofs.Contract.Endpoint

/-!
# Reports of endpoints

A reported fault gets the HTTP method, the path and the identifier of the operation where it has
come from the making of a method, unless it has located itself before: a missing identifier does,
and has none.

## Main definitions

* `Endpoint.Reported`: reports that name an endpoint.

## Main results

* `Fault.locate_unlocated`, `Fault.locate_missing`: the places of faults.
* `Endpoint.reported_of_build`: the report of a method that cannot be made.
-/

namespace ServiceContract

open Build

variable {r : Resolver} {includeResponse : Bool}

/-- The report has the HTTP method and the path of the endpoint, with the identifier of the
operation as it stands there, null if that counts as absent or is what is missing. Its text begins
with the HTTP method in capital letters and the path. -/
structure Endpoint.Reported (e : Endpoint) (report : Report) : Prop where
  place : ∃ id, e.operation.get "operationId" = .ok id ∧ report.place = some
    { httpMethod := some e.httpMethod
      path := .scalar e.path
      operationId :=
        if report.cause = .missingOperationId ∨ id.toValue.isTruthy = false then .null
          else id.toValue }
  message : ∃ rest, report.message =
    String.ofList (Text.upper e.httpMethod.toList) ++ " " ++ e.path.plain ++ rest

theorem Value.isNull_scalar {s : Scalar} (h : s ≠ .null) : (Value.scalar s).isNull = false := by
  cases s with
  | null => exact absurd rfl h
  | _ => rfl

/-- The text of a report whose path is not null. -/
theorem Report.message_eq {report : Report} {httpMethod : String} {path : Scalar} {id : Value}
    (hpath : path ≠ .null)
    (h : report.place =
      some { httpMethod := some httpMethod, path := .scalar path, operationId := id }) :
    ∃ rest, report.message =
      String.ofList (Text.upper httpMethod.toList) ++ " " ++ path.plain ++ rest := by
  rw [Report.message, h]
  dsimp only
  rw [Value.isNull_scalar hpath, if_neg Bool.false_ne_true, Value.plain, Option.getD_some]
  refine ⟨(if id.isTruthy then " (" ++ id.plain ++ ")" else "") ++
    (": " ++ report.cause.message), ?_⟩
  simp only [String.append_assoc]

/-- A fault keeps its cause where it is located. -/
theorem Fault.cause?_locate (fault : Fault) (httpMethod : String) (path : Scalar) (id : Value) :
    (fault.locate httpMethod path id).cause? = fault.cause? := by
  cases fault with
  | reported report =>
    by_cases h : report.isLocated = true
    · rw [locate, Report.locate, if_pos h]
    · rw [locate, Report.locate, if_neg h]
      rfl
  | _ => rfl

/-- A report without a place gets the one that is recorded. -/
theorem Fault.locate_unlocated {report : Report} (h : report.place = none) (httpMethod : String)
    (path : Scalar) (id : Value) : (Fault.reported report).locate httpMethod path id = .reported
      { cause := report.cause
        place := some
          { httpMethod := some httpMethod
            path := .scalar path
            operationId := if id.isTruthy then id else .null } } := by
  have hunlocated : ¬ report.isLocated = true := by
    rw [Report.isLocated, h]
    exact Bool.false_ne_true
  rw [locate, Report.locate, if_neg hunlocated]

/-- A missing identifier is reported without one, as it locates itself before the operation does. -/
theorem Fault.locate_missing {path : Scalar} (hpath : path ≠ .null) (httpMethod : String)
    (id : Value) :
    ((Fault.unlocated .missingOperationId).locate httpMethod path .null).locate httpMethod path id =
      .reported
        { cause := .missingOperationId
          place := some
            { httpMethod := some httpMethod, path := .scalar path, operationId := .null } } := by
  have hfirst : (Fault.unlocated .missingOperationId).locate httpMethod path .null = .reported
      { cause := .missingOperationId
        place := some
          { httpMethod := some httpMethod, path := .scalar path, operationId := .null } } :=
    Fault.locate_unlocated rfl httpMethod path .null
  rw [hfirst, locate, Report.locate, if_pos]
  rw [Report.isLocated, Option.any_some, Value.isNull_scalar hpath, Bool.not_false]

/-- The faults of a method of a named operation are not located yet, and none is for want of an
identifier. -/
theorem readingFaults_unlocated : ReadingFaults fun fault => ∀ report, fault = .reported report →
    report.place = none ∧ report.cause ≠ .missingOperationId where
  malformed := nofun
  unsupported _ _ := by
    rintro _ ⟨⟩
    exact ⟨rfl, nofun⟩
  unresolvable _ _ := by
    rintro _ ⟨⟩
    exact ⟨rfl, nofun⟩

theorem KindFaults.operationName {P : Fault → Prop} (hP : KindFaults P) (operation : Node) :
    FailsWith P (operationName operation) :=
  (hP.get operation _).bind fun id _ =>
    .ite (fun _ => (hP.plainText id.toValue).bind fun _ _ => .ok _) fun _ => .ok _

/-- The fault of a method that cannot be made is located at its endpoint, where it has not located
itself. -/
theorem Endpoint.reported_of_build {e : Endpoint} {s t : Session} {fault : Fault} {report : Report}
    (hpath : e.path ≠ .null) (h : e.build r includeResponse s = (.error fault, t))
    (hlocate : e.locate fault = .reported report) :
    fault.cause? = some report.cause ∧ e.Reported report := by
  have hcause : fault.cause? = some report.cause := by
    rw [← Fault.cause?_locate fault e.httpMethod e.path, ← Endpoint.locate, hlocate]
    rfl
  refine ⟨hcause, ?_⟩
  have hkind : KindFaults fun fault => fault.cause? = none := ⟨rfl⟩
  rw [Endpoint.build, buildMethod_eq, bind_apply, lift_apply] at h
  cases hname : operationName e.operation with
  | error f =>
    rw [hname] at h
    cases h
    rw [hkind.operationName _ hname] at hcause
    cases hcause
  | ok name =>
    obtain ⟨id, hid, -⟩ := except_bind_eq_ok.mp hname
    rw [Endpoint.locate, hid] at hlocate
    rw [hname] at h
    dsimp only at h hlocate
    have hreported {id' : Value} (hplace : report.place = some
        { httpMethod := some e.httpMethod, path := .scalar e.path, operationId := id' })
        (hid' : id' = if report.cause = .missingOperationId ∨ id.toValue.isTruthy = false then .null
          else id.toValue) : e.Reported report :=
      ⟨⟨id, hid, hid' ▸ hplace⟩, Report.message_eq hpath hplace⟩
    split_ifs at h
    · cases h
      rw [Fault.locate_missing hpath] at hlocate
      cases hlocate
      exact hreported rfl (if_pos (.inl rfl)).symm
    · have hfails :=
        readingFaults_unlocated.namedMethod_fails (fun _ h => by cases h) r includeResponse e.path
          e.pathItem e.httpMethod e.operation name s
      rw [h] at hfails
      cases fault with
      | reported arisen =>
        obtain ⟨hplace, hnamed⟩ := hfails rfl arisen rfl
        rw [Fault.locate_unlocated hplace] at hlocate
        cases hlocate
        refine hreported rfl ?_
        by_cases htruthy : id.toValue.isTruthy = true
        · rw [if_pos htruthy, if_neg (by simp [hnamed, htruthy])]
        · rw [if_neg htruthy, if_pos (.inr (Bool.eq_false_iff.mpr htruthy))]
      | _ => cases hcause

end ServiceContract
