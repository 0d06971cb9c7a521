import ServiceContract.Proofs.Contract.Visit
import ServiceContract.Proofs.Document.Edit
import ServiceContract.Proofs.Operation.Shared

/-!
# Contracts that do not depend on a component

A component that nothing refers to has no part in the contract, but for its name: that is taken at
the start like the names of all components. So its schema may be any other one, also one that no
type can be made for.

## Main results

* `Value.Edited.start_eq`: the names of components do not depend on their schemas.
* `Contract.build_unreferenced`: the contract does not depend on a component that nothing refers to.
-/

namespace ServiceContract

/-- The components of a document are named by their keys. -/
theorem Session.componentNodes_ofValue {before after before' after' es : List (Scalar × Value)}
    (h : ∀ e ∈ before, e.1 ≠ .text "components") (h' : ∀ e ∈ before', e.1 ≠ .text "schemas") :
    componentNodes (.ofValue (.map (before ++
        (.text "components", .map (before' ++ (.text "schemas", .map es) :: after')) :: after))) =
      .ok ((es.map Prod.fst).map fun key => .leaf (.label key) key) := by
  rw [componentNodes, Document.ofValue, Node.get_ofValue_entry h, except_ok_bind,
    Node.orEmpty_ofValue_entry]
  dsimp only
  rw [Node.get_ofValue_entry h', except_ok_bind, Node.itemsIfAny_ofValue_map]

namespace Value.Edited

variable {v v' : Value} {keys : List String} {key : String}

/-- What stands at another key of the root is in common. -/
theorem root_get (h : Edited (key :: keys) v v') (key' : String) (hne : key' ≠ key) :
    (Document.ofValue v).root.get key' = (Document.ofValue v').root.get key' ∧
      ∀ m, (Document.ofValue v).root.get key' = .ok m → Common (key :: keys) v v' m := by
  cases h with
  | inside h =>
    obtain ⟨hsame, hcommon⟩ := get?_of_ne [] keys .root .root hne
    refine ⟨congrArg (· >>= _) hsame, fun m hm => ?_⟩
    obtain ⟨found, hfound, hm⟩ := except_bind_eq_ok.mp hm
    cases hm
    cases found with
    | none => exact .blank (.inl rfl)
    | some m => exact hcommon m hfound

theorem infoText_eq (h : Edited (key :: keys) v v') (hne : "info" ≠ key) (field : String) :
    infoText (.ofValue v) field = infoText (.ofValue v') field := by
  rw [infoText, infoText, (h.root_get _ hne).1]

/-- The names of components do not depend on their schemas. -/
theorem start_eq {name : String} (h : Edited ["components", "schemas", name] v v')
    (hv : v.isKeyed = true) :
    Session.start (.ofValue v) = Session.start (.ofValue v') := by
  have hnodes : Session.componentNodes (.ofValue v) = Session.componentNodes (.ofValue v') := by
    obtain _ | @⟨_, _, before, after, w, w', h⟩ := h
    obtain _ | @⟨_, _, before', after', u, u', h⟩ := h
    obtain _ | @⟨_, _, before'', after'', t, t', h⟩ := h
    obtain ⟨hbefore, hv⟩ := isKeyed_entry hv
    obtain ⟨hbefore', -⟩ := isKeyed_entry hv
    rw [Session.componentNodes_ofValue hbefore hbefore',
      Session.componentNodes_ofValue hbefore hbefore']
    simp only [List.map_append, List.map_cons]
  rw [Session.start, Session.start, hnodes]

end Value.Edited

namespace Contract

/-- The contract of a JSON document does not depend on the schema of a component if no reference
outside of this schema leads to it, into it, or to one of the maps around it. -/
theorem build_unreferenced {text name : String} {v v' : Value} (hv : Json.read text = .ok v)
    (hedit : v.Edited ["components", "schemas", name] v')
    (hclear : v.Unreferenced ["components", "schemas", name]) (options : Options) :
    build (.ofValue v) options = build (.ofValue v') options := by
  have hkeyed := Json.isKeyed_of_read hv
  have hshares : Resolver.Shares (Value.Common ["components", "schemas", name] v v')
      (resolver (.ofValue v) options) (resolver (.ofValue v') options) :=
    ⟨hedit.shares hkeyed hclear, rfl⟩
  obtain ⟨hpaths, hcommon⟩ := hedit.root_get "paths" (by decide)
  rw [build_eq, build_eq, contractName, contractName, hedit.infoText_eq (by decide),
    hedit.infoText_eq (by decide), hedit.start_eq hkeyed, documentPaths, documentPaths, ← hpaths]
  refine bind_congr fun _ => bind_congr fun _ => bind_congr fun _ => bind_congr fun start => ?_
  refine except_bind_congr rfl fun paths hpaths => ?_
  obtain ⟨n, hn, hpaths⟩ := except_bind_eq_ok.mp hpaths
  rw [hshares.buildPaths options.includeResponse fun e he =>
    hshares.doc.closed.entriesIfAny (hcommon n hn) hpaths he]

/-- A JSON text with an operation that refers to one component, and with another one that refers to
itself. -/
def spareText : String :=
  "\x7b\"paths\":\x7b\"/a\":\x7b\"get\":\x7b\"operationId\":\"a\",\"requestBody\":\x7b\"$ref\":" ++
  "\"#/components/schemas/A\"\x7d\x7d\x7d\x7d," ++
  "\"components\":\x7b\"schemas\":\x7b\"A\":\x7b\x7d,\"X\":" ++
  "\x7b\"$ref\":\"#/components/schemas/X\"\x7d\x7d\x7d\x7d"

/-- The contract is the same if the schema of the other component is null. -/
theorem build_unreferenced_spare :
    ∃ v v' c, Json.read spareText = .ok v ∧
      Value.replace? (.scalar .null) ["components", "schemas", "X"] v = some v' ∧
      v.Unreferenced ["components", "schemas", "X"] ∧
      build (.ofValue v) .standard = .ok c ∧ build (.ofValue v') .standard = .ok c := by
  have hrun : ((Json.read spareText).toOption.any fun v =>
      (Value.replace? (.scalar .null) ["components", "schemas", "X"] v).isSome &&
        decide (v.Unreferenced ["components", "schemas", "X"]) &&
        (build (.ofValue v) .standard).toOption.any fun _ => true) = true := by
    decide +kernel
  obtain ⟨v, hv, hrun⟩ := exists_of_any hrun
  rw [Bool.and_eq_true, Bool.and_eq_true, decide_eq_true_eq] at hrun
  obtain ⟨⟨hsome, hclear⟩, hbuild⟩ := hrun
  obtain ⟨v', hv'⟩ := Option.isSome_iff_exists.mp hsome
  obtain ⟨c, hc, -⟩ := exists_of_any hbuild
  have hsame := build_unreferenced hv (Value.edited_of_replace? hv') hclear .standard
  exact ⟨v, v', c, hv, hv', hclear, hc, hsame.symm.trans hc⟩

end Contract

end ServiceContract
