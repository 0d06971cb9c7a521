import Mathlib.Order.Bounds.Defs
import ServiceContract.Proofs.Contract.Run
import ServiceContract.Proofs.Operation.Parallel
import ServiceContract.Proofs.Schema.Mention
import ServiceContract.Proofs.Session.Start

/-!
# The declarations of a contract

A contract declares exactly the types that its methods need: those that occur in results and
parameters, and those that occur in the fields of declared types that are needed. No type is
mentioned without being declared, and none is declared without being needed.

## Main definitions

* `Method.names`: the declared types that a method mentions.
* `Contract.Covers`: a set of names has what the methods mention and what its declarations mention.

## Main results

* `Contract.isLeast_declared`: the declared names are the least set that covers the contract.
-/

namespace ServiceContract

open Build Session

/-- The declared types that a method mentions, in its result and in its parameters. -/
def Method.names (m : Method) : List String :=
  m.returnType.names ++ m.parameters.flatMap fun b => b.type.names

/-- A set of names has all names that the methods mention, and with the name of a declaration those
that the declaration mentions. -/
structure Contract.Covers (c : Contract) (S : Set String) : Prop where
  methods : ∀ m ∈ c.methods, ∀ n ∈ m.names, n ∈ S
  declarations : ∀ d ∈ c.declarations, d.name ∈ S → ∀ n ∈ d.mentioned, n ∈ S

variable {r : Resolver} {s t : Session}

instance : IsPreorder Session (Adds [] []) where
  refl := Adds.refl
  trans _ _ _ := Adds.trans

theorem resolve_adds {schema : Node} {hint : String} {type : TypeExpr}
    (h : r.resolve schema hint s = (.ok type, t)) : ∃ ds, Adds ds type.names s t :=
  Resolver.resolveWithin_adds h

theorem note_adds (e : Event) : Moves (Adds [] []) (note e) := fun s =>
  (Adds.refl s).congr rfl rfl rfl rfl (fun _ => .rfl) fun _ => .rfl

/-! ### Methods -/

theorem bindParameter_adds {owner : String} {location : Location} {parameter : Node} {b : Binding}
    (h : bindParameter r owner location parameter s = (.ok b, t)) :
    ∃ ds, Adds ds b.type.names s t := by
  obtain ⟨name, -, h⟩ := lift_bind_eq_ok.mp h
  obtain ⟨wireName, -, h⟩ := lift_bind_eq_ok.mp h
  obtain ⟨schema, -, h⟩ := lift_bind_eq_ok.mp h
  obtain ⟨type, u, htype, h⟩ := bind_eq_ok.mp h
  obtain ⟨required, -, h⟩ := lift_bind_eq_ok.mp h
  obtain ⟨default, -, h⟩ := lift_bind_eq_ok.mp h
  obtain ⟨rfl, rfl⟩ := pure_eq_ok.mp h
  exact resolve_adds htype

theorem bindAll_adds {owner : String} {location : Location} {parameters : List Node}
    {bs : List Binding} (h : bindAll r owner location parameters s = (.ok bs, t)) :
    ∃ ds, Adds ds (bs.flatMap fun b => b.type.names) s t := by
  induction parameters generalizing s bs with
  | nil =>
    obtain ⟨rfl, rfl⟩ := pure_eq_ok.mp h
    exact ⟨[], .refl _⟩
  | cons p parameters ih =>
    obtain ⟨b, s₁, hb, h⟩ := bind_eq_ok.mp h
    obtain ⟨bs, s₂, hbs, h⟩ := bind_eq_ok.mp h
    obtain ⟨rfl, rfl⟩ := pure_eq_ok.mp h
    obtain ⟨ds, hds⟩ := bindParameter_adds hb
    obtain ⟨es, hes⟩ := ih hbs
    exact ⟨ds ++ es, hds.trans hes⟩

theorem bindLocations_adds {owner : String} {parameters : List (String × Node)}
    {locations : List Location} {bs : List Binding}
    (h : bindLocations r owner parameters locations s = (.ok bs, t)) :
    ∃ ds, Adds ds (bs.flatMap fun b => b.type.names) s t := by
  induction locations generalizing s bs with
  | nil =>
    obtain ⟨rfl, rfl⟩ := pure_eq_ok.mp h
    exact ⟨[], .refl _⟩
  | cons location locations ih =>
    obtain ⟨bs, s₁, hbs, h⟩ := bind_eq_ok.mp h
    obtain ⟨cs, s₂, hcs, h⟩ := bind_eq_ok.mp h
    obtain ⟨rfl, rfl⟩ := pure_eq_ok.mp h
    obtain ⟨ds, hds⟩ := bindAll_adds hbs
    obtain ⟨es, hes⟩ := ih hcs
    rw [List.flatMap_append]
    exact ⟨ds ++ es, hds.trans hes⟩

theorem bindParameters_adds {pathItem operation : Node} {owner : String} {bs : List Binding}
    (h : bindParameters r pathItem operation owner s = (.ok bs, t)) :
    ∃ ds, Adds ds (bs.flatMap fun b => b.type.names) s t := by
  obtain ⟨keyed, -, h⟩ := lift_bind_eq_ok.mp h
  obtain ⟨_, s₁, hskipped, h⟩ := bind_eq_ok.mp h
  have hnote := noteSkipped_moves note_adds (keyed.map fun p => (p.1.location, p.2)) s
  rw [hskipped] at hnote
  obtain ⟨ds, hds⟩ := bindLocations_adds h
  exact ⟨ds, hnote.trans hds⟩

theorem buildResult_adds {operation : Node} {owner : String} {result : Option Scalar × TypeExpr}
    (h : buildResult r operation owner s = (.ok result, t)) : ∃ ds, Adds ds result.2.names s t := by
  obtain ⟨content, -, h⟩ := lift_bind_eq_ok.mp h
  obtain ⟨media, -, h⟩ := lift_bind_eq_ok.mp h
  rcases media with _ | ⟨mediaType, media⟩
  · obtain ⟨rfl, rfl⟩ := pure_eq_ok.mp h
    exact ⟨[], .refl _⟩
  · obtain ⟨schema, -, h⟩ := lift_bind_eq_ok.mp h
    obtain ⟨type, u, htype, h⟩ := bind_eq_ok.mp h
    obtain ⟨rfl, rfl⟩ := pure_eq_ok.mp h
    exact resolve_adds htype

theorem buildBody_adds {operation : Node} {owner : String}
    {body : Option Scalar × List Binding} (h : buildBody r operation owner s = (.ok body, t)) :
    ∃ ds, Adds ds (body.2.flatMap fun b => b.type.names) s t := by
  obtain ⟨found, -, h⟩ := lift_bind_eq_ok.mp h
  rcases found with _ | ⟨mediaType, schema, required⟩
  · obtain ⟨rfl, rfl⟩ := pure_eq_ok.mp h
    exact ⟨[], .refl _⟩
  · obtain ⟨type, u, htype, h⟩ := bind_eq_ok.mp h
    obtain ⟨rfl, rfl⟩ := pure_eq_ok.mp h
    obtain ⟨ds, hds⟩ := resolve_adds htype
    refine ⟨ds, ?_⟩
    rw [List.flatMap_singleton]
    exact hds

/-- Another name leaves a binding its type. -/
theorem flatMap_renameBindings (taken : List String) (bs : List Binding) :
    ((renameBindings taken bs).flatMap fun b => b.type.names) = bs.flatMap fun b =>
      b.type.names := by
  induction bs generalizing taken with
  | nil => rfl
  | cons b bs ih =>
    rw [renameBindings, List.flatMap_cons, List.flatMap_cons, ih]

/-- A method comes behind the methods that are there, and adds what its names need. -/
theorem buildMethod_adds {includeResponse : Bool} {path : Scalar} {pathItem operation : Node}
    {httpMethod : String} {m : Method}
    (h : buildMethod r includeResponse path pathItem httpMethod operation s = (.ok m, t)) :
    ∃ ds u, Adds ds m.names s u ∧ t.declarations = u.declarations ∧ t.methods = u.methods ++ [m] ∧
      ∀ n, t.Mentions n ↔ u.Mentions n := by
  obtain ⟨id, -, h⟩ := lift_bind_eq_ok.mp h
  by_cases hid : id.isEmpty = true
  · rw [if_pos hid] at h
    cases h
  rw [if_neg hid] at h
  obtain ⟨⟨produces, returnType⟩, s₁, hresult, h⟩ := bind_eq_ok.mp h
  obtain ⟨⟨consumes, body⟩, s₂, hbody, h⟩ := bind_eq_ok.mp h
  obtain ⟨bound, s₃, hbound, h⟩ := bind_eq_ok.mp h
  obtain ⟨⟨⟩, s₄, hrenamed, h⟩ := bind_eq_ok.mp h
  obtain ⟨summary, -, h⟩ := lift_bind_eq_ok.mp h
  obtain ⟨ds, hds⟩ := buildResult_adds hresult
  obtain ⟨es, hes⟩ := buildBody_adds hbody
  obtain ⟨fs, hfs⟩ := bindParameters_adds hbound
  have hnote := congrArg Prod.snd hrenamed ▸ (noteRenamed_notes bound _).moves note_adds s₃
  have hhandle : ((if includeResponse = true then [responseBinding] else []).flatMap
      fun b => b.type.names) = [] := by
    split_ifs <;> rfl
  cases h
  refine ⟨ds ++ (es ++ fs ++ []), s₄, ?_, rfl, rfl, fun _ => .rfl⟩
  rw [Method.names, List.flatMap_append, List.flatMap_append, flatMap_renameBindings, hhandle]
  exact hds.trans ((hes.trans hfs).trans hnote)

/-! ### Contracts -/

namespace Session

/-- What is mentioned is declared, what the declarations and the methods mention is mentioned, and
the declarations are needed by the methods and stand in order. -/
structure Closed (s : Session) : Prop where
  declared : ∀ {n}, s.Mentions n → n ∈ s.declarations.map Declaration.name
  mentioned : ∀ d ∈ s.declarations, ∀ n ∈ d.mentioned, s.Mentions n
  used : ∀ m ∈ s.methods, ∀ n ∈ m.names, s.Mentions n
  needed : ∀ d ∈ s.declarations,
    Needed s.declarations (fun n => ∃ m ∈ s.methods, n ∈ m.names) d.name
  ordered : InOrder (fun _ => False) s.declarations

theorem start_closed {doc : Document} (h : start doc = .ok s) : s.Closed := by
  rw [start_eq h]
  have hnone {n : String} :
      ¬ Mentions { blank with taken := s.taken, components := s.components } n := by
    rintro (⟨e, he, -⟩ | ⟨e, he, -⟩)
    · exact List.not_mem_nil he
    · exact List.not_mem_nil he
  exact
    { declared := fun h => absurd h hnone
      mentioned := fun d hd => absurd hd List.not_mem_nil
      used := fun m hm => absurd hm List.not_mem_nil
      needed := fun d hd => absurd hd List.not_mem_nil
      ordered := .nil }

/-- A closed session stays closed when it gets a method with what its names need. -/
theorem Closed.add {ds : List Declaration} {m : Method} {u : Session} (hs : s.Closed)
    (h : Adds ds m.names s u) (htd : t.declarations = u.declarations)
    (htm : t.methods = u.methods ++ [m]) (ht : ∀ n, t.Mentions n ↔ u.Mentions n) : t.Closed := by
  rw [h.declarations] at htd
  rw [h.methods] at htm
  constructor
  · intro n hn
    rw [htd, List.map_append, List.mem_append]
    exact (h.declared ((ht n).mp hn)).imp_left hs.declared
  · intro d hd n hn
    rw [htd, List.mem_append] at hd
    rw [ht]
    exact hd.elim (fun hd => h.kept (hs.mentioned d hd n hn)) fun hd => h.mentioned d hd n hn
  · intro m' hm n hn
    rw [htm, List.mem_append, List.mem_singleton] at hm
    rw [ht]
    rcases hm with hm | rfl
    · exact h.kept (hs.used m' hm n hn)
    · exact h.named n hn
  · intro d hd
    rw [htd, htm]
    rcases List.mem_append.mp (htd ▸ hd) with hd | hd
    · exact (hs.needed d hd).trans (fun _ => List.mem_append_left ds)
        fun n ⟨m', hm, hn⟩ => .root ⟨m', List.mem_append_left [m] hm, hn⟩
    · exact (h.needed d hd).trans (fun _ => List.mem_append_right s.declarations)
        fun n hn => .root ⟨m, List.mem_append_right s.methods (List.mem_singleton.mpr rfl), hn⟩
  · rw [htd]
    exact hs.ordered.append h.ordered fun n hn => .inr (hs.declared hn)

end Session

theorem buildOperations_closed {includeResponse : Bool} {path : Scalar} {pathItem : Node}
    {methods : List String} (hs : s.Closed)
    (h : buildOperations r includeResponse path pathItem methods s = (.ok (), t)) : t.Closed := by
  induction methods generalizing s with
  | nil =>
    obtain ⟨-, rfl⟩ := pure_eq_ok.mp h
    exact hs
  | cons httpMethod methods ih =>
    obtain ⟨operation, -, h⟩ := lift_bind_eq_ok.mp h
    by_cases hnull : operation.isNull = true
    · rw [if_pos hnull] at h
      exact ih hs h
    · rw [if_neg hnull] at h
      obtain ⟨m, s₁, hmethod, h⟩ := bind_eq_ok.mp h
      obtain ⟨ds, u, hadds, hd, hm, hu⟩ := buildMethod_adds (locating_eq_ok.mp hmethod)
      exact ih (hs.add hadds hd hm hu) h

theorem buildPaths_closed {includeResponse : Bool} {paths : List (Scalar × Node)} (hs : s.Closed)
    (h : buildPaths r includeResponse paths s = (.ok (), t)) : t.Closed := by
  induction paths generalizing s with
  | nil =>
    obtain ⟨-, rfl⟩ := pure_eq_ok.mp h
    exact hs
  | cons e paths ih =>
    obtain ⟨⟨⟩, s₁, hoperations, h⟩ := bind_eq_ok.mp h
    exact ih (buildOperations_closed hs hoperations) h

namespace Contract

/-- The names of the declarations of a contract are the least set that has all names which its
methods mention, and with the name of a declaration those which the declaration mentions. -/
theorem isLeast_declared {doc : Document} {options : Options} {c : Contract}
    (h : build doc options = .ok c) :
    IsLeast {S | c.Covers S} {n | n ∈ c.declarations.map Declaration.name} := by
  obtain ⟨name, title, version, start, paths, s, -, -, -, hstart, -, hrun, rfl⟩ :=
    build_eq_ok_iff.mp h
  have hs : s.Closed := buildPaths_closed (start_closed hstart) hrun
  refine ⟨⟨fun m hm n hn => hs.declared (hs.used m hm n hn),
    fun d hd _ n hn => hs.declared (hs.mentioned d hd n hn)⟩, fun S hS n hn => ?_⟩
  obtain ⟨d, hd, rfl⟩ := List.mem_map.mp hn
  -- All that is needed lies in every set that covers the contract.
  have hneeded {n : String} (h : Needed s.declarations (fun n => ∃ m ∈ s.methods, n ∈ m.names) n) :
      n ∈ S := by
    induction h with
    | root h =>
      obtain ⟨m, hm, hn⟩ := h
      exact hS.methods m hm _ hn
    | mentioned hd _ hn ih => exact hS.declarations _ hd ih _ hn
  exact hneeded (hs.needed d hd)

/-- A document with an operation whose result is one of two records that mention each other. -/
def mutualRecords : Document :=
  let ref (name : String) : Value := .map [(.text "$ref", .text ("#/components/schemas/" ++ name))]
  let record (field : String) (type : Value) : Value :=
    .map [(.text "properties", .map [(.text field, type)])]
  .ofValue (.map [
    (.text "paths", .map [(.text "/owner", .map [(.text "get", .map [
      (.text "operationId", .text "getOwner"),
      (.text "responses", .map [(.text "200", .map [(.text "content", .map [
        (.text "application/json", .map [(.text "schema", ref "Owner")])])])])])])]),
    (.text "components", .map [(.text "schemas", .map [
      (.text "Owner", record "pet" (ref "Pet")), (.text "Pet", record "owner" (ref "Owner")),
      (.text "Unused", record "name" (.map []))])])])

theorem isLeast_declared_mutualRecords :
    ∃ c, build mutualRecords .standard = .ok c ∧
      c.declarations.map Declaration.name = ["Pet", "Owner"] ∧
      IsLeast {S | c.Covers S} {n | n ∈ c.declarations.map Declaration.name} := by
  have hrun : (build mutualRecords .standard).map (fun c => c.declarations.map Declaration.name) =
      .ok ["Pet", "Owner"] := by
    rfl
  cases h : build mutualRecords .standard with
  | error fault =>
    rw [h] at hrun
    cases hrun
  | ok c =>
    rw [h] at hrun
    exact ⟨c, rfl, Except.ok.inj hrun, isLeast_declared h⟩

end Contract

end ServiceContract
