import ServiceContract.Contract.Build
import ServiceContract.Proofs.Operation.Parallel
import ServiceContract.Proofs.Schema.BuiltIn

/-!
# Operations under two tables of built-in types

What is done for an operation uses the types of its schemas, but never looks at them. So under two
tables that accept the same schemas an operation gives the same method, up to built-in types: with
the same names, locations, defaults and routing.

## Main results

* `bindParameters_twins`, `buildMethod_twins`, `buildPaths_twins`: bindings, methods and the methods
  of all paths, up to built-in types.
-/

namespace ServiceContract

open Build

variable {r r' : Resolver} {symbol : String}

/-! ### Notes and names -/

/-- The same notes are taken in both sessions. -/
theorem Build.Notes.twins {m : Build Unit} (h : Notes m) :
    Twins (Session.Resembles symbol) Eq m m := by
  induction h with
  | none => exact .pure rfl
  | note e _ ih => exact .bind_eq (.note e) fun _ => ih

theorem noteSkipped_twins (parameters : List (String × Node)) :
    Twins (Session.Resembles symbol) Eq (noteSkipped parameters) (noteSkipped parameters) := by
  induction parameters with
  | nil => exact .pure rfl
  | cons p parameters ih =>
    obtain ⟨location, parameter⟩ := p
    rw [noteSkipped]
    split_ifs
    · exact ih
    · exact .lift_bind_right fun name => .bind_eq (.note _) fun _ => ih

section Same

variable {before before' after after' : List Binding}
  (hb : SameBuiltIn (List.map (Binding.withBuiltIn symbol)) before before')
include hb

/-- Bindings that are the same up to built-in types have the same names. -/
theorem map_name_eq : before.map Binding.name = before'.map Binding.name := by
  have hnames := congrArg (List.map Binding.name) hb
  rwa [List.map_map, List.map_map] at hnames

/-- They get the same new names. -/
theorem renameBindings_same (taken : List String) :
    SameBuiltIn (List.map (Binding.withBuiltIn symbol)) (renameBindings taken before)
      (renameBindings taken before') := by
  have hmap (taken : List String) (bindings : List Binding) :
      (renameBindings taken bindings).map (Binding.withBuiltIn symbol) =
        renameBindings taken (bindings.map (Binding.withBuiltIn symbol)) := by
    induction bindings generalizing taken with
    | nil => rfl
    | cons b bindings ih =>
      simp only [renameBindings, List.map_cons, ih]
      rfl
  exact (hmap _ _).trans ((congrArg _ hb).trans (hmap _ _).symm)

/-- The same notes are taken on their new names. -/
theorem noteRenamed_eq (ha : SameBuiltIn (List.map (Binding.withBuiltIn symbol)) after after') :
    noteRenamed before after = noteRenamed before' after' := by
  have hmap (before after : List Binding) :
      noteRenamed (before.map (Binding.withBuiltIn symbol))
      (after.map (Binding.withBuiltIn symbol)) =
        noteRenamed before after := by
    induction before generalizing after with
    | nil => rfl
    | cons b before ih =>
      cases after with
      | nil => rfl
      | cons c after =>
        simp only [List.map_cons, noteRenamed, ih]
        rfl
  rw [← hmap before, hb, ha, hmap]

end Same

/-! ### Parameters -/

variable (h : r.Resembles r')
include h

theorem bindParameter_twins (owner : String) (location : Location) (parameter : Node) :
    Twins (Session.Resembles symbol) (SameBuiltIn (Binding.withBuiltIn symbol))
      (bindParameter r owner location parameter) (bindParameter r' owner location parameter) := by
  refine .lift_bind_right fun name => .lift_bind_right fun wireName =>
    .lift_bind_right fun schema => ?_
  refine .bind (Resolver.resolve_twins h _ _) fun type type' htype =>
    .lift_bind_right fun required => ?_
  have htype : type.withBuiltIn symbol = type'.withBuiltIn symbol := htype
  exact .lift_bind_right fun default =>
    .pure (by simp only [SameBuiltIn, Binding.withBuiltIn, htype])

theorem bindAll_twins (owner : String) (location : Location) (parameters : List Node) :
    Twins (Session.Resembles symbol) (SameBuiltIn (List.map (Binding.withBuiltIn symbol)))
      (bindAll r owner location parameters) (bindAll r' owner location parameters) := by
  induction parameters with
  | nil => exact .pure rfl
  | cons p parameters ih =>
    refine .bind (bindParameter_twins h owner location p) fun b b' hb => ?_
    refine .bind ih fun bindings bindings' hbindings => .pure ?_
    have hb : b.withBuiltIn symbol = b'.withBuiltIn symbol := hb
    have hbindings : bindings.map _ = bindings'.map (Binding.withBuiltIn symbol) := hbindings
    simp only [SameBuiltIn, List.map_cons, hb, hbindings]

theorem bindLocations_twins (owner : String) (parameters : List (String × Node))
    (locations : List Location) :
    Twins (Session.Resembles symbol) (SameBuiltIn (List.map (Binding.withBuiltIn symbol)))
      (bindLocations r owner parameters locations)
      (bindLocations r' owner parameters locations) := by
  induction locations with
  | nil => exact .pure rfl
  | cons location locations ih =>
    refine .bind (bindAll_twins h owner location _) fun here here' hhere => ?_
    refine .bind ih fun bindings bindings' hbindings => .pure ?_
    have hhere : here.map _ = here'.map (Binding.withBuiltIn symbol) := hhere
    have hbindings : bindings.map _ = bindings'.map (Binding.withBuiltIn symbol) := hbindings
    simp only [SameBuiltIn, List.map_append, hhere, hbindings]

/-- The bindings of an operation are the same under both tables, up to built-in types. -/
theorem bindParameters_twins (pathItem operation : Node) (owner : String) :
    Twins (Session.Resembles symbol) (SameBuiltIn (List.map (Binding.withBuiltIn symbol)))
      (bindParameters r pathItem operation owner) (bindParameters r' pathItem operation owner) := by
  rw [bindParameters, bindParameters, h.doc]
  refine .lift_bind_right fun keyed => .bind_eq (noteSkipped_twins _) fun _ => ?_
  exact bindLocations_twins h owner _ _

/-! ### Methods -/

theorem buildResult_twins (operation : Node) (owner : String) :
    Twins (Session.Resembles symbol)
      (SameBuiltIn fun a : Option Scalar × TypeExpr => (a.1, a.2.withBuiltIn symbol))
      (buildResult r operation owner) (buildResult r' operation owner) := by
  rw [buildResult, buildResult, h.doc]
  refine .lift_bind_right fun content => .lift_bind_right fun media => ?_
  rcases media with _ | ⟨mediaType, media⟩
  · exact .pure rfl
  · refine .lift_bind_right fun schema => ?_
    refine .bind (Resolver.resolve_twins h schema _) fun type type' htype => .pure ?_
    exact congrArg (Prod.mk (some mediaType)) htype

theorem buildBody_twins (operation : Node) (owner : String) :
    Twins (Session.Resembles symbol)
      (SameBuiltIn fun a : Option Scalar × List Binding =>
        (a.1, a.2.map (Binding.withBuiltIn symbol)))
      (buildBody r operation owner) (buildBody r' operation owner) := by
  rw [buildBody, buildBody, h.doc]
  refine .lift_bind_right fun body => ?_
  rcases body with _ | ⟨mediaType, schema, required⟩
  · exact .pure rfl
  · refine .bind (Resolver.resolve_twins h schema _) fun type type' htype => .pure ?_
    have htype : type.withBuiltIn symbol = type'.withBuiltIn symbol := htype
    simp only [SameBuiltIn, requestBinding, List.map_cons, List.map_nil, Binding.withBuiltIn, htype]

omit h in
/-- A method is added and noted. -/
theorem addMethod_note_twins {m m' : Method} (hm : SameBuiltIn (Method.withBuiltIn symbol) m m')
    (httpMethod : String) (path : Scalar) :
    Twins (Session.Resembles symbol) (SameBuiltIn (Method.withBuiltIn symbol))
      (do Build.addMethod m; Build.note (.builtMethod m.name httpMethod path); return m)
      (do Build.addMethod m'; Build.note (.builtMethod m'.name httpMethod path); return m') := by
  have hsame : m.withBuiltIn symbol = m'.withBuiltIn symbol := hm
  have hname : m.name = m'.name := by
    simpa only [Method.withBuiltIn] using congrArg Method.name hsame
  rw [hname]
  exact .bind_eq (.addMethod hm) fun _ => .bind_eq (.note _) fun _ => .pure hm

/-- The method of an operation is the same under both tables, up to built-in types. -/
theorem buildMethod_twins (includeResponse : Bool) (path : Scalar) (pathItem : Node)
    (httpMethod : String) (operation : Node) :
    Twins (Session.Resembles symbol) (SameBuiltIn (Method.withBuiltIn symbol))
      (buildMethod r includeResponse path pathItem httpMethod operation)
      (buildMethod r' includeResponse path pathItem httpMethod operation) := by
  refine .lift_bind_right fun id => ?_
  by_cases hid : id.isEmpty = true
  · rw [if_pos hid, if_pos hid]
    exact .fail _
  rw [if_neg hid, if_neg hid]
  refine .bind (buildResult_twins h operation _) fun result result' hresult => ?_
  refine .bind (buildBody_twins h operation _) fun bodies bodies' hbodies => ?_
  refine .bind (bindParameters_twins h pathItem operation _) fun bound bound' hbound => ?_
  obtain ⟨produces, returnType⟩ := result
  obtain ⟨produces', returnType'⟩ := result'
  obtain ⟨consumes, body⟩ := bodies
  obtain ⟨consumes', body'⟩ := bodies'
  obtain ⟨rfl, htype⟩ : produces = produces' ∧
    returnType.withBuiltIn symbol = returnType'.withBuiltIn symbol := Prod.mk.inj hresult
  obtain ⟨rfl, hbody⟩ : consumes = consumes' ∧
    body.map (Binding.withBuiltIn symbol) = body'.map (Binding.withBuiltIn symbol) :=
    Prod.mk.inj hbodies
  have hnames (handle : List Binding) :
      (body ++ handle).map Binding.name = (body' ++ handle).map Binding.name := by
    rw [List.map_append, List.map_append, map_name_eq hbody]
  have hrenamed (taken : List String) :
      (renameBindings taken bound).map (Binding.withBuiltIn symbol) =
      (renameBindings taken bound').map (Binding.withBuiltIn symbol) :=
        renameBindings_same hbound taken
  dsimp only
  rw [hnames, noteRenamed_eq hbound (hrenamed _)]
  refine .bind_eq (noteRenamed_notes _ _).twins fun _ => .lift_bind_right fun summary => ?_
  refine addMethod_note_twins ?_ httpMethod path
  simp only [SameBuiltIn, Method.withBuiltIn, List.map_append, htype, hbody, hrenamed]

omit h in
/-- Faults get the same place in both sessions. -/
theorem Build.Twins.locating {α : Type} {R : α → α → Prop} {S : Session → Session → Prop}
    {m m' : Build α} (hm : Twins S R m m') (httpMethod : String) (path : Scalar)
    (operation : Node) :
    Twins S R (locating httpMethod path operation m) (locating httpMethod path operation m') := by
  intro s t hs
  obtain ⟨hresult, hsession⟩ := hm hs
  unfold ServiceContract.locating
  rcases hrun : m s with ⟨result, s₁⟩
  rcases hrun' : m' t with ⟨result', t₁⟩
  rw [hrun, hrun'] at hresult hsession
  cases hresult with
  | error fault => exact ⟨.error _, hsession⟩
  | ok hab => exact ⟨.ok hab, hsession⟩

theorem buildOperations_twins (includeResponse : Bool) (path : Scalar) (pathItem : Node)
    (methods : List String) :
    Twins (Session.Resembles symbol) Eq (buildOperations r includeResponse path pathItem methods)
      (buildOperations r' includeResponse path pathItem methods) := by
  induction methods with
  | nil => exact .pure rfl
  | cons httpMethod methods ih =>
    refine .lift_bind_right fun operation => ?_
    by_cases hnull : operation.isNull = true
    · rw [if_pos hnull, if_pos hnull]
      exact ih
    · rw [if_neg hnull, if_neg hnull]
      have hmethod :
          Twins (Session.Resembles symbol) (SameBuiltIn (Method.withBuiltIn symbol)) _ _ :=
        buildMethod_twins h includeResponse path pathItem httpMethod operation
      exact .bind (hmethod.locating httpMethod path operation) fun _ _ _ => ih

/-- The methods of all paths are the same under both tables, up to built-in types. -/
theorem buildPaths_twins (includeResponse : Bool) (paths : List (Scalar × Node)) :
    Twins (Session.Resembles symbol) Eq (buildPaths r includeResponse paths)
      (buildPaths r' includeResponse paths) := by
  induction paths with
  | nil => exact .pure rfl
  | cons e paths ih =>
    obtain ⟨path, pathItem⟩ := e
    exact .bind_eq (buildOperations_twins h includeResponse path _ _) fun _ => ih

end ServiceContract
