import ServiceContract.Proofs.Contract.Run
import ServiceContract.Proofs.Operation.BuiltIn
import ServiceContract.Proofs.Operation.Failure
import ServiceContract.Proofs.Schema.SameTypes
import ServiceContract.Proofs.Session.Start

/-!
# Contracts with a handle for the response

The handle for the response is one more parameter of every method. It takes away the name
`response`, so that a parameter of that name gets another one, which may take away that of the next
parameter in turn. Nothing else of a method changes, and no type and no declaration.

## Main definitions

* `Binding.SameButName`: parameters that differ at most in their names.
* `Method.GainsHandle`, `Contract.GainsHandles`: a method, or every method of a contract, with the
  handle.

## Main results

* `renameBindings_of_subset`: names that stay free are given all the same.
* `buildMethod_gainsHandle`: the method of an operation without and with the handle.
* `Contract.build_gainsHandles`: the contract of a document without and with the handle.
-/

namespace ServiceContract

open Build Session

/-! ### Methods with the handle -/

/-- The parameters differ at most in their names. -/
def Binding.SameButName (b c : Binding) : Prop :=
  c = { b with name := c.name }

/-- The second method has one more parameter than the first one, the handle for the response, which
comes last. The others differ at most in their names, and not even in these unless the handle has
taken the name of one. -/
structure Method.GainsHandle (m m' : Method) : Prop where
  name : m'.name = m.name
  returnType : m'.returnType = m.returnType
  routing : m'.routing = m.routing
  summary : m'.summary = m.summary
  parameters : ∃ others handle, m'.parameters = others ++ [handle] ∧
    handle.name = "response" ∧ handle.type = .responseChannel ∧ handle.required = true ∧
    List.Forall₂ Binding.SameButName m.parameters others ∧
    ((∀ p ∈ m.parameters, p.name ≠ "response") → others = m.parameters)

/-- The second contract is the first one, but with the handle for the response in every method. -/
structure Contract.GainsHandles (c c' : Contract) : Prop where
  name : c'.name = c.name
  isInterface : c'.isInterface = c.isInterface
  title : c'.title = c.title
  version : c'.version = c.version
  declarations : c'.declarations = c.declarations
  methods : List.Forall₂ Method.GainsHandle c.methods c'.methods

/-! ### Names of parameters -/

theorem Binding.SameButName.refl (b : Binding) : b.SameButName b := rfl

/-- New names are all that parameters get. -/
theorem renameBindings_sameButName (taken taken' : List String) (bindings : List Binding) :
    List.Forall₂ Binding.SameButName (renameBindings taken bindings)
      (renameBindings taken' bindings) := by
  induction bindings generalizing taken taken' with
  | nil => exact .nil
  | cons b bindings ih => exact .cons rfl (ih _ _)

/-- If one more name is taken that no parameter gets, they get the same names. -/
theorem renameBindings_of_subset {taken taken' : List String} {name : String}
    {bindings : List Binding} (hsub : taken ⊆ taken') (hnew : ∀ n ∈ taken', n ∈ taken ∨ n = name)
    (hfree : ∀ b ∈ renameBindings taken bindings, b.name ≠ name) :
    renameBindings taken' bindings = renameBindings taken bindings := by
  induction bindings generalizing taken taken' with
  | nil => rfl
  | cons b bindings ih =>
    obtain ⟨hne, hfree⟩ := List.forall_mem_cons.mp hfree
    have hname : freshName "" taken' b.name = freshName "" taken b.name :=
      freshName_of_subset hsub fun hmem =>
        (hnew _ hmem).elim (freshName_not_mem "" taken b.name) hne
    have hrest := ih (List.cons_subset_cons (freshName "" taken b.name) hsub)
      (fun n hn => by
        rcases List.mem_cons.mp hn with rfl | hn
        · exact .inl List.mem_cons_self
        · exact (hnew n hn).imp_left (List.mem_cons_of_mem _)) hfree
    rw [renameBindings, renameBindings, hname, hrest]

/-! ### Operations -/

theorem Build.Notes.twins_sameTypes {m m' : Build Unit} (h : Notes m) (h' : Notes m') :
    Twins SameTypes Eq m m' := by
  intro s t hs
  obtain ⟨events, hrun⟩ := h.apply s
  obtain ⟨events', hrun'⟩ := h'.apply t
  obtain ⟨methods, _, rfl⟩ := hs
  rw [hrun, hrun']
  exact ⟨.ok rfl, methods, events', rfl⟩

/-- What is done for operations comes out the same in sessions that differ only in their methods and
events. -/
theorem Build.Parallel.sameTypes {r : Resolver} {P : Node → Prop} {α : Type} {m m' : Build α}
    (h : Parallel r P m m') : Twins SameTypes Eq m m := by
  induction h with
  | pure a b => exact .pure rfl
  | fail fault => exact .fail fault
  | notes h h' => exact h.twins_sameTypes h
  | addMethod m m' => exact .addMethod_sameTypes m m
  | resolve h hint => exact Resolver.resolve_sameTypes _ hint
  | locating httpMethod path operation h ih => exact ih.locating httpMethod path operation
  | bind h hk ih ihk => exact ih.bind_eq fun a => ihk a a

/-- Sessions with the same types, of which the second one has methods with the handle. -/
structure Session.GainsHandles (s t : Session) : Prop where
  types : s.SameTypes t
  methods : List.Forall₂ Method.GainsHandle s.methods t.methods

/-- Steps that do not add methods leave those with the handle behind. -/
theorem Build.Twins.gainsHandles {α : Type} {R : α → α → Prop} {m m' : Build α}
    (h : Twins SameTypes R m m') (hm : Moves SameMethods m) (hm' : Moves SameMethods m') :
    Twins GainsHandles R m m' := by
  intro s t hs
  obtain ⟨hresult, htypes⟩ := h hs.types
  refine ⟨hresult, htypes, ?_⟩
  rw [hm s, hm' t]
  exact hs.methods

section Operation

variable {r : Resolver} (pathItem operation : Node) (owner : String)

theorem buildResult_gainsHandles :
    Twins GainsHandles Eq (buildResult r operation owner) (buildResult r operation owner) :=
  (buildResult_parallel r.doc.true_hereditary trivial owner).sameTypes.gainsHandles
    (buildResult_moves Resolver.resolve_sameMethods _ _)
    (buildResult_moves Resolver.resolve_sameMethods _ _)

theorem buildBody_gainsHandles :
    Twins GainsHandles Eq (buildBody r operation owner) (buildBody r operation owner) :=
  (buildBody_parallel r.doc.true_hereditary trivial owner).sameTypes.gainsHandles
    (buildBody_moves Resolver.resolve_sameMethods _ _)
    (buildBody_moves Resolver.resolve_sameMethods _ _)

theorem bindParameters_gainsHandles :
    Twins GainsHandles Eq (bindParameters r pathItem operation owner)
      (bindParameters r pathItem operation owner) :=
  have hmoves : Moves SameMethods (bindParameters r pathItem operation owner) :=
    bindParameters_moves Resolver.resolve_sameMethods (fun _ _ => rfl) _ _ _
  (bindParameters_parallel r.doc.true_hereditary trivial trivial owner).sameTypes.gainsHandles
    hmoves hmoves

end Operation

theorem Build.Notes.gainsHandles {m m' : Build Unit} (h : Notes m) (h' : Notes m') :
    Twins GainsHandles Eq m m' :=
  (h.twins_sameTypes h').gainsHandles (h.moves fun _ _ => rfl) (h'.moves fun _ _ => rfl)

/-- A method without the handle is added on one side, and one with the handle on the other. -/
theorem Build.Twins.addMethod_gainsHandle {m m' : Method} (h : m.GainsHandle m') :
    Twins GainsHandles Eq (Build.addMethod m) (Build.addMethod m') := by
  refine modify fun s t hs => ⟨?_, ?_⟩
  · obtain ⟨⟨methods, events, rfl⟩, -⟩ := hs
    exact ⟨_, _, rfl⟩
  · exact List.rel_append hs.methods (.cons h .nil)

/-- The parameters without and with the handle. -/
theorem gainsHandle_parameters (body bound : List Binding) : ∃ others handle,
    body ++ renameBindings ((body ++ [responseBinding]).map Binding.name) bound ++
      [responseBinding] =
        others ++ [handle] ∧
      handle.name = "response" ∧ handle.type = .responseChannel ∧ handle.required = true ∧
      List.Forall₂ Binding.SameButName
        (body ++ renameBindings (body.map Binding.name) bound) others ∧
      ((∀ p ∈ body ++ renameBindings (body.map Binding.name) bound, p.name ≠ "response") →
        others = body ++ renameBindings (body.map Binding.name) bound) := by
  refine ⟨_, responseBinding, rfl, rfl, rfl, rfl, ?_, fun hfree => ?_⟩
  · exact List.rel_append (List.forall₂_same.mpr fun b _ => .refl b)
      (renameBindings_sameButName _ _ _)
  · refine congrArg (body ++ ·)
      (renameBindings_of_subset ?_ ?_ fun b hb => hfree b (List.mem_append_right _ hb))
    · rw [List.map_append]
      exact List.subset_append_left _ _
    · intro n hn
      rw [List.map_append, List.mem_append] at hn
      exact hn.imp_right List.mem_singleton.mp

/-- The same fault keeps the method of an operation from being made without and with the handle, or
the second one has the handle besides. -/
theorem buildMethod_gainsHandle (r : Resolver) (path : Scalar) (pathItem : Node)
    (httpMethod : String) (operation : Node) :
    Twins GainsHandles Method.GainsHandle (buildMethod r false path pathItem httpMethod operation)
      (buildMethod r true path pathItem httpMethod operation) := by
  refine .lift_bind_right fun id => ?_
  by_cases hid : id.isEmpty = true
  · rw [if_pos hid, if_pos hid]
    exact .fail _
  rw [if_neg hid, if_neg hid]
  refine .bind_eq (buildResult_gainsHandles operation _) fun result => ?_
  refine .bind_eq (buildBody_gainsHandles operation _) fun body => ?_
  refine .bind_eq (bindParameters_gainsHandles pathItem operation _) fun bound => ?_
  refine .bind_eq ((noteRenamed_notes _ _).gainsHandles (noteRenamed_notes _ _)) fun _ => ?_
  refine .lift_bind_right fun summary => ?_
  obtain ⟨produces, returnType⟩ := result
  obtain ⟨consumes, body⟩ := body
  dsimp only
  rw [if_neg Bool.false_ne_true, if_pos rfl, List.append_nil, List.append_nil]
  refine .bind_eq
    (.addMethod_gainsHandle ⟨rfl, rfl, rfl, rfl, gainsHandle_parameters body bound⟩) fun _ => ?_
  refine .bind_eq (Notes.gainsHandles (.note _ .none) (.note _ .none)) fun _ => .pure ?_
  exact ⟨rfl, rfl, rfl, rfl, gainsHandle_parameters body bound⟩

theorem buildOperations_gainsHandles (r : Resolver) (path : Scalar) (pathItem : Node)
    (methods : List String) :
    Twins GainsHandles Eq (buildOperations r false path pathItem methods)
      (buildOperations r true path pathItem methods) := by
  induction methods with
  | nil => exact .pure rfl
  | cons httpMethod methods ih =>
    refine .lift_bind_right fun operation => ?_
    by_cases hnull : operation.isNull = true
    · rw [if_pos hnull, if_pos hnull]
      exact ih
    · rw [if_neg hnull, if_neg hnull]
      exact .bind ((buildMethod_gainsHandle r path pathItem httpMethod operation).locating
        httpMethod path operation) fun _ _ _ => ih

theorem buildPaths_gainsHandles (r : Resolver) (paths : List (Scalar × Node)) :
    Twins GainsHandles Eq (buildPaths r false paths) (buildPaths r true paths) := by
  induction paths with
  | nil => exact .pure rfl
  | cons e paths ih =>
    obtain ⟨path, pathItem⟩ := e
    exact .bind_eq (buildOperations_gainsHandles r path _ _) fun _ => ih

/-! ### Contracts -/

namespace Contract

/-- Sessions that differ in the handles of their methods make up contracts that do. -/
theorem matches_ofRun (name title version : String) (isInterface : Bool)
    {out out' : Except Fault Unit × Session} (hresult : Matches Eq out.1 out'.1)
    (hsession : out.2.GainsHandles out'.2) :
    Matches GainsHandles (ofRun name title version isInterface out)
      (ofRun name title version isInterface out') := by
  obtain ⟨result, s⟩ := out
  obtain ⟨result', t⟩ := out'
  cases hresult with
  | error fault => exact .error fault
  | ok => exact .ok ⟨rfl, rfl, rfl, rfl, hsession.types.declarations_eq.symm, hsession.methods⟩

/-- The same fault keeps the contract of a document from being built without and with the handle for
the response, or the second contract is the first one with the handle in every method. -/
theorem build_gainsHandles (doc : Document) (options : Options) :
    Matches GainsHandles (build doc { options with includeResponse := false })
      (build doc { options with includeResponse := true }) := by
  rw [build_eq, build_eq]
  refine .bind_right fun name => .bind_right fun title => .bind_right fun version => ?_
  cases hstart : Session.start doc with
  | error fault => exact .error fault
  | ok start =>
    rw [except_ok_bind, except_ok_bind]
    refine .bind_right fun paths => ?_
    have hmethods : start.methods = [] := by rw [Session.start_eq hstart]; rfl
    have hgains : start.GainsHandles start := ⟨.refl start, by rw [hmethods]; exact .nil⟩
    obtain ⟨hresult, hsession⟩ := buildPaths_gainsHandles (resolver doc options) paths hgains
    exact matches_ofRun name title version options.isInterface hresult hsession

end Contract

end ServiceContract
