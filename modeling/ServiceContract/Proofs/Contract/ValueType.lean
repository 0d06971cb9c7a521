import ServiceContract.Proofs.Contract.Visit
import ServiceContract.Proofs.Operation.ValueType

/-!
# Types of values in contracts

In the contract of a document the absence of a value is the result of the methods whose operations
have no schema for their result, and of no other ones; it is nowhere inside a type, and no parameter
and no field has it. The handle for the response is the type of the parameter that every method gets
where callers ask for it, and of nothing else.

## Main results

* `Contract.build_valueTyped`: where a contract has types of values.
-/

namespace ServiceContract

namespace Session

/-- No reference has a type at the start, and nothing is declared. -/
theorem start_valued {doc : Document} {s : Session} (h : start doc = .ok s) : s.Valued := by
  rw [start_eq h]
  exact { references := fun e he => absurd he List.not_mem_nil
          declarations := fun d hd => absurd hd List.not_mem_nil }

end Session

namespace Contract

/-- The declarations of a contract have types of values throughout. Each method is made for an
endpoint of the document, and has the absence of a value as its result exactly if the operation has
no schema for it; its result has a type of values otherwise, and so has each of its parameters but
the handle for the response, which it has where callers ask for it. -/
theorem build_valueTyped {doc : Document} {options : Options} {c : Contract}
    (h : build doc options = .ok c) :
    (∀ d ∈ c.declarations, d.HasValues) ∧ ∃ paths, documentPaths doc = .ok paths ∧
      List.Forall₂ (fun e m => Method.ValueTyped doc options.includeResponse e.operation m)
        (endpoints paths)
        c.methods := by
  have hstep (e : Endpoint) : Build.Keeps Session.Valued
      (Method.ValueTyped doc options.includeResponse e.operation)
      (e.build (resolver doc options) options.includeResponse) :=
    buildMethod_keeps_valued options.includeResponse e.path e.pathItem e.httpMethod e.operation
  obtain ⟨paths, s, hpaths, hs, hdeclarations, hmethods⟩ :=
    keeps_build h (fun _ => Session.start_valued) hstep
  exact ⟨hdeclarations ▸ hs.declarations, paths, hpaths, hmethods⟩

/-- A document with schemas that are absent or null in every place: for properties, items and
results. -/
def sparseDocument : Document :=
  let operation (id : String) (response : List (Scalar × Value)) : Value :=
    .map [(.text "operationId", .text id), (.text "responses", .map [(.text "200", .map response)])]
  let content (media : List (Scalar × Value)) : List (Scalar × Value) :=
    [(.text "content", .map [(.text "application/json", .map media)])]
  .ofValue (.map [
    (.text "paths", .map [(.text "/jobs", .map [
      (.text "parameters",
        .list [.map [(.text "name", .text "after"), (.text "in", .text "query")]]),
      (.text "get", operation "listJobs" (content [(.text "schema", .map [
        (.text "$ref", .text "#/components/schemas/Job")])])),
      (.text "put", operation "replaceJobs" (content [(.text "schema", .scalar .null)])),
      (.text "post", operation "addJob" (content [])),
      (.text "delete", operation "clearJobs" [])])]),
    (.text "components",
      .map [(.text "schemas",
        .map [(.text "Job",
          .map [(.text "properties",
            .map [ (.text "id", .scalar .null),
              (.text "tags", .map [(.text "type", .text "array")])])])])])])

/-- Only results are absent in the contract of such a document, and only handles are there besides
values. -/
theorem build_valueTyped_sparseDocument :
    ∃ c, build sparseDocument { Options.standard with includeResponse := true } = .ok c ∧
      c.methods.map Method.returnType = [.declared "Job", .noValue, .noValue, .noValue] ∧
      c.declarations.flatMap (fun d => d.fields.map Field.type) =
        [.primitive "Any", .list (.primitive "Any")] ∧
      (∀ d ∈ c.declarations, d.HasValues) ∧ ∃ paths, documentPaths sparseDocument = .ok paths ∧
        List.Forall₂ (fun e m => Method.ValueTyped sparseDocument true e.operation m)
          (endpoints paths)
          c.methods := by
  obtain ⟨c, hc, hresults, hfields⟩ :
      ∃ c, build sparseDocument { Options.standard with includeResponse := true } = .ok c ∧
        c.methods.map Method.returnType = [.declared "Job", .noValue, .noValue, .noValue] ∧
        c.declarations.flatMap (fun d => d.fields.map Field.type) =
          [.primitive "Any", .list (.primitive "Any")] :=
    ⟨_, rfl, rfl, rfl⟩
  exact ⟨c, hc, hresults, hfields, build_valueTyped hc⟩

end Contract

end ServiceContract
