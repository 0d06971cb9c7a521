import ServiceContract.Contract.Build
import ServiceContract.Proofs.Operation.Part

/-!
# Operations step by step

What is done for an operation does not depend on the types that its schemas resolve to: they end up
in the method, and decide at most which notes are taken. So two runs of it, from whatever sessions,
consist of the same steps, as far as both of them go on. That is stated once, as a relation between
steps, and what holds for one run or two is shown by induction on it.

## Main definitions

* `Build.Notes`: steps that only take notes.
* `Build.Parallel`: two steps that go the same way whatever types they have got before.

## Main results

* `buildMethod_parallel`, `bindParameters_parallel`, `buildPaths_parallel`.
* `bindParameters_moves`, `buildMethod_moves`: how sessions move along them.
-/

namespace ServiceContract

namespace Build

/-- Steps that take notes and do nothing else. -/
inductive Notes : Build Unit → Prop
  | none : Notes (pure ())
  | note (e : Event) {m : Build Unit} (h : Notes m) : Notes (note e >>= fun _ => m)

/-- Notes change the events of a session and nothing else. -/
theorem Notes.apply {m : Build Unit} (h : Notes m) (s : Session) :
    ∃ events, m s = (.ok (), { s with events }) := by
  induction h generalizing s with
  | none => exact ⟨s.events, rfl⟩
  | note e _ ih => exact ih (Build.note e s).2

/-- The session along notes. -/
theorem Notes.moves {R : Session → Session → Prop} [IsPreorder Session R] {m : Build Unit}
    (h : Notes m) (hn : ∀ e, Moves R (Build.note e)) : Moves R m := by
  induction h with
  | none => exact .pure ()
  | note e _ ih => exact .bind (hn e) fun _ => ih

/-- Two steps that go the same way whatever types they have got before. The schemas that are
resolved on the way have the property `P`. -/
inductive Parallel (r : Resolver) (P : Node → Prop) : {α : Type} → Build α → Build α → Prop
  | pure {α : Type} (a b : α) : Parallel r P (Pure.pure a) (Pure.pure b)
  | fail {α : Type} (fault : Fault) : Parallel r P (Build.fail fault : Build α) (Build.fail fault)
  | notes {m m' : Build Unit} (h : Notes m) (h' : Notes m') : Parallel r P m m'
  | addMethod (m m' : Method) : Parallel r P (Build.addMethod m) (Build.addMethod m')
  | resolve {schema : Node} (h : P schema) (hint : String) :
    Parallel r P (r.resolve schema hint) (r.resolve schema hint)
  | locating {α : Type} {m m' : Build α} (httpMethod : String) (path : Scalar) (operation : Node)
    (h : Parallel r P m m') : Parallel r P (ServiceContract.locating httpMethod path operation m)
      (ServiceContract.locating httpMethod path operation m')
  | bind {α β : Type} {m m' : Build α} {k k' : α → Build β} (h : Parallel r P m m')
    (hk : ∀ a b, Parallel r P (k a) (k' b)) : Parallel r P (m >>= k) (m' >>= k')

namespace Parallel

variable {r : Resolver} {P : Node → Prop} {α β : Type}

theorem lift_bind {x : Except Fault α} {k k' : α → Build β}
    (hk : ∀ a, x = .ok a → Parallel r P (k a) (k' a)) :
    Parallel r P ((liftM x : Build α) >>= k) ((liftM x : Build α) >>= k') := by
  cases x with
  | error fault => exact .fail fault
  | ok a => exact hk a rfl

/-- The session along steps that resolve schemas with the property, take notes and add methods. -/
theorem moves_of {R : Session → Session → Prop} [IsPreorder Session R] {m m' : Build α}
    (h : Parallel r P m m') (hf : ∀ n hint, P n → Moves R (r.resolve n hint))
    (hn : ∀ e, Moves R (note e)) (hm : ∀ m, Moves R (Build.addMethod m)) : Moves R m := by
  induction h with
  | pure a b => exact .pure a
  | fail fault => exact .fail fault
  | notes h h' => exact h.moves hn
  | addMethod m m' => exact hm m
  | resolve h hint => exact hf _ hint h
  | @locating _ m _ httpMethod path operation h ih =>
    intro s
    have hs := ih s
    unfold ServiceContract.locating
    rcases hrun : m s with ⟨fault | a, t⟩
    · rwa [hrun] at hs
    · rwa [hrun] at hs
  | bind h hk ih ihk => exact .bind ih fun a => ihk a a

/-- The session along steps that resolve schemas, take notes and add methods. -/
theorem moves {R : Session → Session → Prop} [IsPreorder Session R] {m m' : Build α}
    (h : Parallel r P m m') (hf : ∀ n hint, Moves R (r.resolve n hint)) (hn : ∀ e, Moves R (note e))
    (hm : ∀ m, Moves R (Build.addMethod m)) : Moves R m :=
  h.moves_of (fun n hint _ => hf n hint) hn hm

end Parallel

end Build

open Build

variable {r : Resolver} {P : Node → Prop} (hP : r.doc.Hereditary P)

theorem noteSkipped_parallel (parameters : List (String × Node)) :
    Parallel r P (noteSkipped parameters) (noteSkipped parameters) := by
  induction parameters with
  | nil => exact .pure () ()
  | cons p parameters ih =>
    obtain ⟨location, parameter⟩ := p
    rw [noteSkipped]
    split_ifs
    · exact ih
    · refine .lift_bind fun name _ => .bind (.notes (.note _ .none) (.note _ .none)) fun _ _ => ih

theorem noteRenamed_notes (before after : List Binding) : Notes (noteRenamed before after) := by
  induction before generalizing after with
  | nil => exact .none
  | cons b before ih =>
    cases after with
    | nil => exact .none
    | cons c after =>
      rw [noteRenamed]
      split_ifs
      · exact ih after
      · exact .note _ (ih after)

include hP

theorem bindParameter_parallel (owner : String) (location : Location) {parameter : Node}
    (hp : P parameter) :
    Parallel r P (bindParameter r owner location parameter)
      (bindParameter r owner location parameter) := by
  refine .lift_bind fun name _ => .lift_bind fun wireName _ => .lift_bind fun schema hschema => ?_
  have hresolve := hP.orEmpty (hP.get hp hschema)
  refine .bind (.resolve hresolve _) fun type type' => .lift_bind fun required _ => ?_
  exact .lift_bind fun default _ => .pure _ _

theorem bindAll_parallel (owner : String) (location : Location) {parameters : List Node}
    (hp : ∀ p ∈ parameters, P p) :
    Parallel r P (bindAll r owner location parameters) (bindAll r owner location parameters) := by
  induction parameters with
  | nil => exact .pure _ _
  | cons p parameters ih =>
    refine .bind (bindParameter_parallel hP owner location (hp p List.mem_cons_self)) fun _ _ => ?_
    exact .bind (ih fun p hmem => hp p (List.mem_cons_of_mem _ hmem)) fun _ _ => .pure _ _

theorem bindLocations_parallel (owner : String) {parameters : List (String × Node)}
    (hp : ∀ p ∈ parameters, P p.2) (locations : List Location) :
    Parallel r P (bindLocations r owner parameters locations)
      (bindLocations r owner parameters locations) := by
  induction locations with
  | nil => exact .pure _ _
  | cons location locations ih =>
    refine .bind (bindAll_parallel hP owner location fun p hmem => ?_) fun _ _ =>
      .bind ih fun _ _ => .pure _ _
    obtain ⟨q, hq, rfl⟩ := List.mem_map.mp hmem
    exact hp q (List.mem_filter.mp hq).1

/-- The bindings of an operation. -/
theorem bindParameters_parallel {pathItem operation : Node} (hi : P pathItem) (ho : P operation)
    (owner : String) :
    Parallel r P (bindParameters r pathItem operation owner)
      (bindParameters r pathItem operation owner) := by
  refine .lift_bind fun keyed hkeyed => .bind (noteSkipped_parallel _) fun _ _ => ?_
  refine bindLocations_parallel hP owner (fun p hp => ?_) _
  obtain ⟨q, hq, rfl⟩ := List.mem_map.mp hp
  exact hP.collectKeyedParameters hi ho hkeyed q hq

theorem buildResult_parallel {operation : Node} (ho : P operation) (owner : String) :
    Parallel r P (buildResult r operation owner) (buildResult r operation owner) := by
  refine .lift_bind fun content hcontent => .lift_bind fun media hmedia => ?_
  rcases media with _ | ⟨mediaType, media⟩
  · exact .pure _ _
  · have hp := hP.firstMedia (fun c hc => hP.successContent ho (hc ▸ hcontent)) hmedia
    exact .lift_bind fun schema hschema =>
      .bind (.resolve (hP.get hp hschema) _) fun _ _ => .pure _ _

theorem buildBody_parallel {operation : Node} (ho : P operation) (owner : String) :
    Parallel r P (buildBody r operation owner) (buildBody r operation owner) := by
  refine .lift_bind fun body hbody => ?_
  rcases body with _ | ⟨mediaType, schema, required⟩
  · exact .pure _ _
  · exact .bind (.resolve (hP.requestBody ho hbody) _) fun _ _ => .pure _ _

/-- The making of a method. -/
theorem buildMethod_parallel (includeResponse : Bool) (path : Scalar) {pathItem : Node}
    (httpMethod : String) {operation : Node} (hi : P pathItem) (ho : P operation) :
    Parallel r P (buildMethod r includeResponse path pathItem httpMethod operation)
      (buildMethod r includeResponse path pathItem httpMethod operation) := by
  refine .lift_bind fun id _ => ?_
  by_cases hid : id.isEmpty = true
  · rw [if_pos hid]
    exact .fail _
  · rw [if_neg hid]
    refine .bind (buildResult_parallel hP ho _) fun _ _ => .bind (buildBody_parallel hP ho _) ?_
    refine fun _ _ => .bind (bindParameters_parallel hP hi ho _) fun _ _ => ?_
    refine .bind (.notes (noteRenamed_notes _ _) (noteRenamed_notes _ _)) fun _ _ => ?_
    refine .lift_bind fun summary _ => .bind (.addMethod _ _) fun _ _ => ?_
    exact .bind (.notes (.note _ .none) (.note _ .none)) fun _ _ => .pure _ _

theorem buildOperations_parallel (includeResponse : Bool) (path : Scalar) {pathItem : Node}
    (hi : P pathItem) (methods : List String) :
    Parallel r P (buildOperations r includeResponse path pathItem methods)
      (buildOperations r includeResponse path pathItem methods) := by
  induction methods with
  | nil => exact .pure _ _
  | cons httpMethod methods ih =>
    refine .lift_bind fun operation hoperation => ?_
    by_cases hnull : operation.isNull = true
    · rw [if_pos hnull]
      exact ih
    · rw [if_neg hnull]
      have ho := hP.get hi hoperation
      have hmethod := buildMethod_parallel hP includeResponse path httpMethod hi ho
      exact .bind (.locating httpMethod path operation hmethod) fun _ _ => ih

/-- The methods of paths. -/
theorem buildPaths_parallel (includeResponse : Bool) {paths : List (Scalar × Node)}
    (hp : ∀ e ∈ paths, P e.2) :
    Parallel r P (buildPaths r includeResponse paths) (buildPaths r includeResponse paths) := by
  induction paths with
  | nil => exact .pure _ _
  | cons e paths ih =>
    have hitem := hP.orEmpty (hp e List.mem_cons_self)
    refine .bind (buildOperations_parallel hP includeResponse e.1 hitem httpMethods) fun _ _ => ?_
    exact ih fun e he => hp e (List.mem_cons_of_mem _ he)

/-! ### Sessions along operations -/

omit hP

variable {R : Session → Session → Prop} [IsPreorder Session R]

section Bindings

variable (hf : ∀ n hint, Moves R (r.resolve n hint))

theorem noteSkipped_moves (hn : ∀ e, Moves R (note e)) (parameters : List (String × Node)) :
    Moves R (noteSkipped parameters) := by
  induction parameters with
  | nil => exact .pure _
  | cons p parameters ih =>
    obtain ⟨location, parameter⟩ := p
    rw [noteSkipped]
    split_ifs
    · exact ih
    · exact .lift_bind fun name _ => .bind (hn _) fun _ => ih

include hf

theorem bindAll_moves (owner : String) (location : Location) (parameters : List Node) :
    Moves R (bindAll r owner location parameters) := by
  have hparameter (parameter : Node) : Moves R (bindParameter r owner location parameter) := by
    refine .lift_bind fun name _ => .lift_bind fun wireName _ => .lift_bind fun schema _ => ?_
    refine .bind (hf _ _) fun type => .lift_bind fun required _ => ?_
    exact .lift_bind fun default _ => .pure _
  induction parameters with
  | nil => exact .pure _
  | cons p parameters ih => exact .bind (hparameter p) fun _ => .bind ih fun _ => .pure _

/-- The session along the bindings of an operation. -/
theorem bindParameters_moves (hn : ∀ e, Moves R (note e)) (pathItem operation : Node)
    (owner : String) :
    Moves R (bindParameters r pathItem operation owner) := by
  have hlocations (parameters : List (String × Node)) (locations : List Location) :
      Moves R (bindLocations r owner parameters locations) := by
    induction locations with
    | nil => exact .pure _
    | cons location locations ih =>
      exact .bind (bindAll_moves hf owner location _) fun _ => .bind ih fun _ => .pure _
  exact .lift_bind fun keyed _ => .bind (noteSkipped_moves hn _) fun _ => hlocations _ _

theorem buildResult_moves (operation : Node) (owner : String) :
    Moves R (buildResult r operation owner) := by
  refine .lift_bind fun content _ => .lift_bind fun media _ => ?_
  rcases media with _ | ⟨mediaType, media⟩
  · exact .pure _
  · exact .lift_bind fun schema _ => .bind (hf _ _) fun _ => .pure _

theorem buildBody_moves (operation : Node) (owner : String) :
    Moves R (buildBody r operation owner) := by
  refine .lift_bind fun body _ => ?_
  rcases body with _ | ⟨mediaType, schema, required⟩
  · exact .pure _
  · exact .bind (hf _ _) fun _ => .pure _

end Bindings

/-- The session along the making of a method. -/
theorem buildMethod_moves (hf : ∀ n hint, Moves R (r.resolve n hint)) (hn : ∀ e, Moves R (note e))
    (hm : ∀ m, Moves R (addMethod m)) (includeResponse : Bool) (path : Scalar) (pathItem : Node)
    (httpMethod : String) (operation : Node) :
    Moves R (buildMethod r includeResponse path pathItem httpMethod operation) :=
  (buildMethod_parallel r.doc.true_hereditary includeResponse path httpMethod trivial trivial).moves
    hf hn hm

end ServiceContract
