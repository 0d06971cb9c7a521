import Mathlib.Data.List.Forall2
import ServiceContract.Proofs.Document.Entry
import ServiceContract.Proofs.Operation.Parallel

/-!
# The parameters of operations

The parameters of a path item stand before those of an operation, and each may be a reference. Of
several parameters with one key, the name and the location in small letters, the last one counts, in
the place of the first one. So a parameter of the operation takes the place of one of the path item.
What is bound are the parameters in the path, then those in the query, then those in headers, in the
order of these places.

## Main definitions

* `Keyed`: the parameters that entries lead to, with their keys.
* `LastOfEach`: the last entry for each key, in the place of the first one.
* `HasTextName`: entries for parameters whose names are texts.
* `placed`: the parameters that are bound, in the order of their bindings.
* `Binds`: bindings of parameters, one after the other.
* `Binding.key`, `BindsEach`: bindings that are one for each key at a bound location.
* `Binding.baseName`: the name that a binding has unless it is taken.

## Main results

* `collectKeyedParameters_eq_ok`: the parameters of a path item and an operation.
* `binds_of_bindLocations`: the bindings of parameters, location by location.
* `bindParameters_bindsEach`: the bindings of the parameters of an operation.
-/

namespace ServiceContract

open Build

/-! ### The last entries -/

/-- The second list has one entry for each key of the first one, in the order in which the keys
occur first, and each is the last one with its key. -/
structure LastOfEach {κ α : Type} [DecidableEq κ] (es chosen : List (κ × α)) : Prop where
  keys : chosen.map Prod.fst = (es.map Prod.fst).eraseDups
  last : ∀ e ∈ chosen, ∃ before after, es = before ++ e :: after ∧ e.1 ∉ after.map Prod.fst

namespace LastOfEach

variable {κ α : Type} [DecidableEq κ] {es fs chosen : List (κ × α)} {e : κ × α}

theorem of_assignAll (es : List (κ × α)) : LastOfEach es (assignAll [] es) where
  keys := map_fst_assignAll es
  last _ he := last_of_mem_assignAll he

theorem mem (h : LastOfEach es chosen) (he : e ∈ chosen) : e ∈ es := by
  obtain ⟨before, after, rfl, -⟩ := h.last e he
  exact List.mem_append_right before List.mem_cons_self

theorem exists_mem (h : LastOfEach es chosen) {key : κ} (hkey : key ∈ es.map Prod.fst) :
    ∃ e ∈ chosen, e.1 = key := by
  rw [← List.mem_eraseDups, ← h.keys] at hkey
  exact List.mem_map.mp hkey

theorem nodup (h : LastOfEach es chosen) : (chosen.map Prod.fst).Nodup := by
  rw [h.keys, ← map_fst_assignAll]
  exact nodup_assignAll List.nodup_nil

/-- The keys of the entries in front keep their places, and for each key of an entry behind it is
such an entry that counts. -/
theorem of_append (h : LastOfEach (es ++ fs) chosen) :
    (es.map Prod.fst).eraseDups <+: chosen.map Prod.fst ∧
      ∀ e ∈ chosen, e.1 ∈ fs.map Prod.fst → e ∈ fs := by
  constructor
  · rw [h.keys, List.map_append, List.eraseDups_append]
    exact List.prefix_append _ _
  · intro e he hkey
    obtain ⟨before, after, heq, hafter⟩ := h.last e he
    rcases List.append_eq_append_iff.mp heq with ⟨l, -, hfs⟩ | ⟨l, -, hl⟩
    · rw [hfs]
      exact List.mem_append_right l List.mem_cons_self
    · cases l with
      | nil =>
        rw [List.nil_append] at hl
        exact hl ▸ List.mem_cons_self
      | cons _ l =>
        -- The entry stands in front, and one with its key stands behind it.
        obtain ⟨rfl, rfl⟩ := List.cons.inj hl
        obtain ⟨f, hf, hkey⟩ := List.mem_map.mp hkey
        exact absurd (List.mem_map.mpr ⟨f, List.mem_append_right l hf, hkey⟩) hafter

end LastOfEach

/-! ### Parameters by their keys -/

/-- The parameters that the entries lead to, with their keys. -/
def Keyed (doc : Document) (entries : List Node) (keyed : List (ParameterKey × Node)) : Prop :=
  List.Forall₂
    (fun entry p => doc.follow entry = .ok p.2 ∧ parameterKey p.2 = .ok p.1) entries keyed

theorem Keyed.of_append {doc : Document} {entries entries' : List Node}
    {keyed : List (ParameterKey × Node)} (h : Keyed doc (entries ++ entries') keyed) :
    ∃ front back, keyed = front ++ back ∧ Keyed doc entries front ∧ Keyed doc entries' back := by
  have htake := List.forall₂_take entries.length h
  have hdrop := List.forall₂_drop entries.length h
  rw [List.take_left] at htake
  rw [List.drop_left] at hdrop
  exact ⟨_, _, (List.take_append_drop entries.length keyed).symm, htake, hdrop⟩

/-- The entry leads to a parameter whose name is a text. -/
def HasTextName (doc : Document) (entry : Node) : Prop :=
  ∃ parameter name, doc.follow entry = .ok parameter ∧ parameterName parameter >>=
    Node.asText = .ok name

/-- The name of the parameter is a text. -/
def ParameterKey.IsTextual (key : ParameterKey) : Prop :=
  ∃ name, key.name = .text name

theorem name_of_parameterKey {parameter : Node} {key : ParameterKey} {wireName : String}
    (hkey : parameterKey parameter = .ok key)
    (hname : parameterName parameter >>= Node.asText = .ok wireName) :
    key.name = .text wireName := by
  obtain ⟨name, hname', htext⟩ := except_bind_eq_ok.mp hname
  obtain ⟨name', hname'', hkey⟩ := except_bind_eq_ok.mp hkey
  cases hname'.symm.trans hname''
  obtain ⟨location, -, hkey⟩ := except_bind_eq_ok.mp hkey
  obtain ⟨scalar, hscalar, hkey⟩ := except_bind_eq_ok.mp hkey
  cases hkey
  cases name with
  | leaf a value =>
    cases hscalar
    cases scalar with
    | text text =>
      cases htext
      rfl
    | _ => cases htext
  | _ => cases htext

theorem Keyed.parameterKey {doc : Document} {entries : List Node}
    {keyed : List (ParameterKey × Node)} (h : Keyed doc entries keyed) :
    ∀ p ∈ keyed, ServiceContract.parameterKey p.2 = .ok p.1 := by
  induction h with
  | nil => exact fun p hp => absurd hp List.not_mem_nil
  | cons hp _ ih => exact List.forall_mem_cons.mpr ⟨hp.2, ih⟩

theorem Keyed.isTextual {doc : Document} {entries : List Node} {keyed : List (ParameterKey × Node)}
    (h : Keyed doc entries keyed) (htexts : ∀ entry ∈ entries, HasTextName doc entry) :
    ∀ key ∈ keyed.map Prod.fst, key.IsTextual := by
  induction h with
  | nil => exact fun key hkey => absurd hkey List.not_mem_nil
  | cons hp _ ih =>
    obtain ⟨⟨parameter, name, hparameter, hname⟩, hrest⟩ := List.forall_mem_cons.mp htexts
    cases hp.1.symm.trans hparameter
    exact List.forall_mem_cons.mpr ⟨⟨name, name_of_parameterKey hp.2 hname⟩, ih hrest⟩

theorem ParameterKey.isSame_iff {a b : ParameterKey} (ha : a.IsTextual) (hb : b.IsTextual) :
    a.isSame b = true ↔ a = b := by
  obtain ⟨_, location⟩ := a
  obtain ⟨_, location'⟩ := b
  obtain ⟨name, rfl⟩ := ha
  obtain ⟨name', rfl⟩ := hb
  rw [isSame, Bool.and_eq_true, beq_iff_eq, isSame_text, mk.injEq, Scalar.text.injEq, and_comm]

/-- To add a parameter whose name is a text is to assign it to its key. -/
theorem insertParameter_eq {key : ParameterKey} (hkey : key.IsTextual) (parameter : Node)
    {ps : List (ParameterKey × Node)} (hps : ∀ p ∈ ps, p.1.IsTextual) :
    insertParameter key parameter ps = assign ps (key, parameter) := by
  induction ps with
  | nil => rfl
  | cons p ps ih =>
    obtain ⟨hp, hps⟩ := List.forall_mem_cons.mp hps
    have hiff := ParameterKey.isSame_iff hp hkey
    rw [insertParameter, assign]
    by_cases h : p.1 = key
    · rw [if_pos (hiff.mpr h), if_pos h, h]
    · rw [if_neg (mt hiff.mp h), if_neg h, ih hps]

theorem mergeParameters_eq_ok {doc : Document} {entries : List Node}
    {merged result : List (ParameterKey × Node)}
    (h : mergeParameters doc merged entries = .ok result) :
    ∃ keyed, Keyed doc entries keyed ∧
      ((∀ key ∈ (merged ++ keyed).map Prod.fst, key.IsTextual) →
        result = assignAll merged keyed) := by
  induction entries generalizing merged with
  | nil =>
    cases h
    exact ⟨[], .nil, fun _ => rfl⟩
  | cons entry entries ih =>
    obtain ⟨parameter, hparameter, h⟩ := except_bind_eq_ok.mp h
    obtain ⟨key, hkey, h⟩ := except_bind_eq_ok.mp h
    obtain ⟨keyed, hkeyed, hresult⟩ := ih h
    refine ⟨(key, parameter) :: keyed, .cons ⟨hparameter, hkey⟩ hkeyed, fun htexts => ?_⟩
    rw [List.map_append, List.map_cons, List.forall_mem_append, List.forall_mem_cons] at htexts
    obtain ⟨hmerged, htext, htexts⟩ := htexts
    have hinsert : insertParameter key parameter merged = assign merged (key, parameter) :=
      insertParameter_eq htext parameter fun p hp => hmerged p.1 (List.mem_map_of_mem hp)
    rw [hinsert] at hresult
    refine hresult ?_
    rw [List.map_append, List.forall_mem_append]
    refine ⟨fun key' hkey' => ?_, htexts⟩
    rcases mem_keys_assign hkey' with rfl | hkey'
    · exact htext
    · exact hmerged key' hkey'

/-- The parameters of a path item and an operation are the last ones for each key among those to
which the entries of the path item and of the operation lead, if all of their names are texts. -/
theorem collectKeyedParameters_eq_ok {doc : Document} {pathItem operation : Node}
    {chosen : List (ParameterKey × Node)}
    (h : collectKeyedParameters doc pathItem operation = .ok chosen) :
    ∃ shared own sharedKeyed ownKeyed, pathItem.get "parameters" >>= Node.itemsIfAny = .ok shared ∧
      operation.get "parameters" >>= Node.itemsIfAny = .ok own ∧
      Keyed doc shared sharedKeyed ∧ Keyed doc own ownKeyed ∧
      ((∀ entry ∈ shared ++ own, HasTextName doc entry) →
        LastOfEach (sharedKeyed ++ ownKeyed) chosen) := by
  obtain ⟨value, hvalue, h⟩ := except_bind_eq_ok.mp h
  obtain ⟨shared, hshared, h⟩ := except_bind_eq_ok.mp h
  obtain ⟨value', hvalue', h⟩ := except_bind_eq_ok.mp h
  obtain ⟨own, hown, h⟩ := except_bind_eq_ok.mp h
  obtain ⟨keyed, hkeyed, hresult⟩ := mergeParameters_eq_ok h
  obtain ⟨sharedKeyed, ownKeyed, rfl, hsharedKeyed, hownKeyed⟩ := hkeyed.of_append
  refine ⟨shared, own, sharedKeyed, ownKeyed, ?_, ?_, hsharedKeyed, hownKeyed, fun htexts => ?_⟩
  · rw [hvalue, except_ok_bind, hshared]
  · rw [hvalue', except_ok_bind, hown]
  · rw [hresult (hkeyed.isTextual htexts)]
    exact .of_assignAll _

/-! ### Bindings -/

/-- What a binding is known by. -/
def Binding.key (b : Binding) : ParameterKey :=
  { name := .text b.wireName, location := b.location.name }

/-- The parameters that are bound, location by location. -/
def placed (keyed : List (ParameterKey × Node)) (locations : List Location) :
    List (Location × ParameterKey × Node) :=
  locations.flatMap fun location =>
    (keyed.filter fun p => p.1.location == location.name).map fun p => (location, p)

/-- The bindings of parameters at their locations, made one after the other. -/
inductive Binds (r : Resolver) (owner : String) :
    List (Location × ParameterKey × Node) → Session → List Binding → Session → Prop
  | nil (s : Session) : Binds r owner [] s [] s
  | cons {location : Location} {key : ParameterKey} {parameter : Node}
    {ps : List (Location × ParameterKey × Node)} {s t u : Session} {b : Binding} {bs : List Binding}
    (h : bindParameter r owner location parameter s = (.ok b, t))
    (hrest : Binds r owner ps t bs u) :
    Binds r owner ((location, key, parameter) :: ps) s (b :: bs) u

section Binds

variable {r : Resolver} {owner : String} {s t u : Session}
  {ps ps' : List (Location × ParameterKey × Node)} {bs bs' : List Binding}

theorem Binds.append (h : Binds r owner ps s bs t) (h' : Binds r owner ps' t bs' u) :
    Binds r owner (ps ++ ps') s (bs ++ bs') u := by
  induction h with
  | nil => exact h'
  | cons hb _ ih => exact .cons hb (ih h')

theorem binds_of_bindAll {location : Location} {ps : List (ParameterKey × Node)}
    (h : bindAll r owner location (ps.map Prod.snd) s = (.ok bs, t)) :
    Binds r owner (ps.map fun p => (location, p)) s bs t := by
  induction ps generalizing s bs with
  | nil =>
    obtain ⟨rfl, rfl⟩ := pure_eq_ok.mp h
    exact .nil _
  | cons p ps ih =>
    obtain ⟨b, s₁, hb, h⟩ := bind_eq_ok.mp h
    obtain ⟨bs, s₂, hbs, h⟩ := bind_eq_ok.mp h
    obtain ⟨rfl, rfl⟩ := pure_eq_ok.mp h
    exact .cons hb (ih hbs)

/-- The parameters that are bound are those at the locations, in the order of the locations. -/
theorem binds_of_bindLocations {keyed : List (ParameterKey × Node)} {locations : List Location}
    (h : bindLocations r owner (keyed.map fun p => (p.1.location, p.2)) locations s = (.ok bs, t)) :
    Binds r owner (placed keyed locations) s bs t := by
  induction locations generalizing s bs with
  | nil =>
    obtain ⟨rfl, rfl⟩ := pure_eq_ok.mp h
    exact .nil _
  | cons location locations ih =>
    obtain ⟨here, s₁, hhere, h⟩ := bind_eq_ok.mp h
    obtain ⟨rest, s₂, hrest, h⟩ := bind_eq_ok.mp h
    obtain ⟨rfl, rfl⟩ := pure_eq_ok.mp h
    rw [List.filter_map, List.map_map] at hhere
    exact (binds_of_bindAll hhere).append (ih hrest)

/-- The name that a binding has unless it is taken: the camel-case form of its wire name, or the
wire name itself where that is empty. -/
def Binding.baseName (b : Binding) : String :=
  nonEmpty (Naming.camel b.wireName) b.wireName

/-- A binding is made under the name of the parameter, at its location, and one in the path is
required. -/
theorem bindParameter_eq_ok {location : Location} {parameter : Node} {b : Binding}
    (h : bindParameter r owner location parameter s = (.ok b, t)) :
    parameterName parameter >>= Node.asText = .ok b.wireName ∧ b.location = location ∧
      (location = .path → b.required = true) ∧ b.name = b.baseName := by
  obtain ⟨name, hname, h⟩ := lift_bind_eq_ok.mp h
  obtain ⟨wireName, hwire, h⟩ := lift_bind_eq_ok.mp h
  obtain ⟨schema, hschema, h⟩ := lift_bind_eq_ok.mp h
  obtain ⟨type, s₁, htype, h⟩ := bind_eq_ok.mp h
  obtain ⟨required, hrequired, h⟩ := lift_bind_eq_ok.mp h
  obtain ⟨default, hdefault, h⟩ := lift_bind_eq_ok.mp h
  obtain ⟨rfl, rfl⟩ := pure_eq_ok.mp h
  have hname' : parameterName parameter >>= Node.asText = .ok wireName := by
    rw [hname, except_ok_bind, hwire]
  have hpath (hpath : location = .path) : (location == .path || required.isTruthy) = true := by
    rw [hpath]
    rfl
  exact ⟨hname', rfl, hpath, rfl⟩

/-- The bindings are known by the keys and the locations of the parameters. -/
theorem Binds.map_key (h : Binds r owner ps s bs t)
    (hps : ∀ p ∈ ps, parameterKey p.2.2 = .ok p.2.1 ∧ p.2.1.location = p.1.name) :
    bs.map (fun b => (b.location, b.key)) = ps.map fun p => (p.1, p.2.1) := by
  induction h with
  | nil => rfl
  | @cons location key parameter ps s t u b bs hb _ ih =>
    obtain ⟨⟨hkey, hlocation⟩, hrest⟩ := List.forall_mem_cons.mp hps
    obtain ⟨hname, rfl, -⟩ := bindParameter_eq_ok hb
    have hsame : b.key = key := by
      rw [Binding.key, ← name_of_parameterKey hkey hname, ← hlocation]
    rw [List.map_cons, List.map_cons, ih hrest, hsame]

theorem Binds.location (h : Binds r owner ps s bs t) : ∀ b ∈ bs, ∃ p ∈ ps, p.1 = b.location := by
  induction h with
  | nil => exact fun b hb => absurd hb List.not_mem_nil
  | cons hb _ ih =>
    obtain ⟨-, rfl, -⟩ := bindParameter_eq_ok hb
    refine List.forall_mem_cons.mpr ⟨⟨_, List.mem_cons_self, rfl⟩, fun b hmem => ?_⟩
    obtain ⟨p, hp, hlocation⟩ := ih b hmem
    exact ⟨p, List.mem_cons_of_mem _ hp, hlocation⟩

theorem Binds.required (h : Binds r owner ps s bs t) :
    ∀ b ∈ bs, b.location = .path → b.required = true := by
  induction h with
  | nil => exact fun b hb => absurd hb List.not_mem_nil
  | cons hb _ ih =>
    obtain ⟨-, rfl, hrequired, -⟩ := bindParameter_eq_ok hb
    exact List.forall_mem_cons.mpr ⟨hrequired, ih⟩

theorem Binds.baseName (h : Binds r owner ps s bs t) : ∀ b ∈ bs, b.name = b.baseName := by
  induction h with
  | nil => exact fun b hb => absurd hb List.not_mem_nil
  | cons hb _ ih =>
    obtain ⟨-, -, -, hname⟩ := bindParameter_eq_ok hb
    exact List.forall_mem_cons.mpr ⟨hname, ih⟩

end Binds

section Placed

variable {keyed : List (ParameterKey × Node)} {locations : List Location}

theorem mem_placed {p : Location × ParameterKey × Node} :
    p ∈ placed keyed locations ↔ p.1 ∈ locations ∧ p.2 ∈ keyed ∧ p.2.1.location = p.1.name := by
  constructor
  · intro h
    obtain ⟨location, hlocation, h⟩ := List.mem_flatMap.mp h
    obtain ⟨q, hq, rfl⟩ := List.mem_map.mp h
    obtain ⟨hq, hsame⟩ := List.mem_filter.mp hq
    exact ⟨hlocation, hq, beq_iff_eq.mp hsame⟩
  · rintro ⟨hlocation, hq, hsame⟩
    refine List.mem_flatMap.mpr ⟨p.1, hlocation, List.mem_map.mpr ⟨p.2, ?_, rfl⟩⟩
    exact List.mem_filter.mpr ⟨hq, beq_iff_eq.mpr hsame⟩

/-- No parameter is bound twice, at one location or at two. -/
theorem nodup_placed (hkeys : (keyed.map Prod.fst).Nodup) (hlocations : locations.Nodup) :
    ((placed keyed locations).map fun p => (p.1, p.2.1)).Nodup := by
  rw [placed, List.map_flatMap, List.nodup_flatMap]
  constructor
  · intro location _
    rw [List.map_map]
    change ((keyed.filter _).map ((fun key => (location, key)) ∘ Prod.fst)).Nodup
    rw [← List.map_map]
    exact ((List.filter_sublist.map Prod.fst).nodup hkeys).map fun _ _ h => (Prod.mk.inj h).2
  · have hlocation {location : Location} {p : Location × ParameterKey}
        (hp : p ∈ ((keyed.filter fun q => q.1.location == location.name).map fun q =>
          (location, q)).map fun q => (q.1, q.2.1)) : p.1 = location := by
      obtain ⟨q, hq, rfl⟩ := List.mem_map.mp hp
      obtain ⟨q, -, rfl⟩ := List.mem_map.mp hq
      rfl
    exact hlocations.imp fun hne p hp hp' => hne ((hlocation hp).symm.trans (hlocation hp'))

end Placed

/-- The bindings are those of the parameters at bound locations: one for each key, under the name
and at the location of the key. Those in the path are required. -/
structure BindsEach (keys : List ParameterKey) (bound : List Binding) : Prop where
  distinct : (bound.map fun b => (b.wireName, b.location)).Nodup
  kept : ∀ key ∈ keys, ∀ location ∈ boundLocations, key.location = location.name →
    ∃ b ∈ bound, b.location = location ∧ b.key = key
  among : ∀ b ∈ bound, b.location ∈ boundLocations ∧ b.key ∈ keys
  required : ∀ b ∈ bound, b.location = .path → b.required = true

/-- The bindings of the last parameter for each key are one for each key. -/
theorem Binds.bindsEach {r : Resolver} {owner : String} {s t : Session}
    {keyed chosen : List (ParameterKey × Node)} {bound : List Binding}
    (h : Binds r owner (placed chosen boundLocations) s bound t) (hlast : LastOfEach keyed chosen)
    (hkeyed : ∀ p ∈ keyed, parameterKey p.2 = .ok p.1) :
    BindsEach (keyed.map Prod.fst) bound := by
  have hmap : bound.map (fun b => (b.location, b.key)) =
      (placed chosen boundLocations).map fun p => (p.1, p.2.1) := by
    refine h.map_key fun p hp => ?_
    obtain ⟨-, hp, hlocation⟩ := mem_placed.mp hp
    exact ⟨hkeyed _ (hlast.mem hp), hlocation⟩
  have hnodup : (bound.map fun b => (b.location, b.key)).Nodup :=
    hmap ▸ nodup_placed hlast.nodup (by decide)
  constructor
  · refine List.Nodup.of_map
      (fun q : String × Location => (q.2, ParameterKey.mk (.text q.1) q.2.name)) ?_
    rwa [List.map_map]
  · intro key hkey location hlocation hsame
    obtain ⟨p, hp, rfl⟩ := hlast.exists_mem hkey
    have hmem := List.mem_map_of_mem (f := fun p => (p.1, p.2.1))
      (mem_placed (p := (location, p)).mpr ⟨hlocation, hp, hsame⟩)
    rw [← hmap] at hmem
    obtain ⟨b, hb, heq⟩ := List.mem_map.mp hmem
    obtain ⟨hlocation, hkey⟩ := Prod.mk.inj heq
    exact ⟨b, hb, hlocation, hkey⟩
  · intro b hb
    have hmem := List.mem_map_of_mem (f := fun b => (b.location, b.key)) hb
    rw [hmap] at hmem
    obtain ⟨p, hp, heq⟩ := List.mem_map.mp hmem
    obtain ⟨hlocation, hkey⟩ := Prod.mk.inj heq
    obtain ⟨hmem, hp, -⟩ := mem_placed.mp hp
    exact ⟨hlocation ▸ hmem, hkey ▸ List.mem_map_of_mem (hlast.mem hp)⟩
  · exact h.required

/-! ### The parameters of an operation -/

theorem noteSkipped_events {parameters : List (String × Node)} {s t : Session}
    (h : noteSkipped parameters s = (.ok (), t)) : ∃ events, t = { s with events } := by
  let R (s t : Session) : Prop := ∃ events, t = { s with events }
  have : IsPreorder Session R :=
    { refl := fun s => ⟨s.events, rfl⟩
      trans := fun _ _ _ ⟨_, h⟩ ⟨events, h'⟩ => ⟨events, by rw [h', h]⟩ }
  have hmoves := noteSkipped_moves (R := R) (fun _ _ => ⟨_, rfl⟩) parameters s
  rwa [h] at hmoves

/-- The bindings of an operation are made of the parameters of the path item and of the operation:
the entries of both lead to parameters, and if all of these have texts as names, the last one for
each key counts, in the place of the first one. An entry of the operation takes the place of one of
the path item in particular. Those that count are bound at their locations, first those in the path,
then those in the query, then those in headers; there is one binding for each key at these
locations, and none for any other key. -/
theorem bindParameters_bindsEach {r : Resolver} {pathItem operation : Node} {owner : String}
    {s t : Session} {bound : List Binding}
    (h : bindParameters r pathItem operation owner s = (.ok bound, t)) :
    ∃ shared own sharedKeyed ownKeyed, pathItem.get "parameters" >>= Node.itemsIfAny = .ok shared ∧
      operation.get "parameters" >>= Node.itemsIfAny = .ok own ∧
      Keyed r.doc shared sharedKeyed ∧ Keyed r.doc own ownKeyed ∧
      ((∀ entry ∈ shared ++ own, HasTextName r.doc entry) →
        ∃ chosen events, LastOfEach (sharedKeyed ++ ownKeyed) chosen ∧
          (sharedKeyed.map Prod.fst).eraseDups <+: chosen.map Prod.fst ∧
          (∀ p ∈ chosen, p.1 ∈ ownKeyed.map Prod.fst → p ∈ ownKeyed) ∧
          Binds r owner (placed chosen [.path, .query, .header]) { s with events } bound t ∧
          BindsEach ((sharedKeyed ++ ownKeyed).map Prod.fst) bound) := by
  obtain ⟨chosen, hchosen, h⟩ := lift_bind_eq_ok.mp h
  obtain ⟨⟨⟩, u, hnotes, h⟩ := bind_eq_ok.mp h
  obtain ⟨events, rfl⟩ := noteSkipped_events hnotes
  obtain ⟨shared, own, sharedKeyed, ownKeyed, hshared, hown, hsharedKeyed, hownKeyed, hlast⟩ :=
    collectKeyedParameters_eq_ok hchosen
  refine ⟨shared, own, sharedKeyed, ownKeyed, hshared, hown, hsharedKeyed, hownKeyed,
    fun htexts => ?_⟩
  have hlast := hlast htexts
  have hbinds := binds_of_bindLocations h
  obtain ⟨hplaces, hown⟩ := hlast.of_append
  refine ⟨chosen, events, hlast, hplaces, hown, hbinds, hbinds.bindsEach hlast ?_⟩
  exact List.forall_mem_append.mpr ⟨hsharedKeyed.parameterKey, hownKeyed.parameterKey⟩

/-- A document with a parameter that operations may refer to. -/
def sharedLimit : Resolver where
  doc := .ofValue
    (.map [(.text "components",
      .map [(.text "parameters",
        .map [(.text "Limit",
          .map [ (.text "name", .scalar (.text "limit")), (.text "in", .scalar (.text "QUERY")),
    (.text "schema", .map [(.text "type", .scalar (.text "integer"))])])])])])
  primitives := pythonPrimitives

/-- A path item with a limit of another type, and an identifier in the path. -/
def rowsItem : Node :=
  .ofValue [.key (.text "/rows/{id}")] (.map [(.text "parameters", .list [
    .map [(.text "name", .scalar (.text "limit")), (.text "in", .scalar (.text "query"))],
    .map [(.text "name", .scalar (.text "id")), (.text "in", .scalar (.text "Path"))]])])

/-- An operation that refers to the limit, and has parameters in headers and cookies. -/
def rowsOperation : Node :=
  .ofValue [.key (.text "get"), .key (.text "/rows/{id}")] (.map [(.text "parameters", .list [
    .map [(.text "name", .scalar (.text "page")), (.text "in", .scalar (.text "query"))],
    .map [(.text "name", .scalar (.text "trace")), (.text "in", .scalar (.text "header"))],
    .map [(.text "name", .scalar (.text "trace")), (.text "in", .scalar (.text "cookie"))],
    .map [(.text "$ref", .scalar (.text "#/components/parameters/Limit"))]])])

/-- The limit of the operation comes in the place of that of the path item, before the page. -/
theorem bindParameters_bindsEach_rows :
    ∃ bound t, bindParameters sharedLimit rowsItem rowsOperation "GetRows" .blank = (.ok bound, t) ∧
      bound.map (fun b => (b.wireName, b.location, b.required)) =
        [("id", .path, true), ("limit", .query, false), ("page", .query, false),
          ("trace", .header, false)] ∧
      ∃ sharedKeyed ownKeyed chosen events, LastOfEach (sharedKeyed ++ ownKeyed) chosen ∧
        (sharedKeyed.map Prod.fst).eraseDups <+: chosen.map Prod.fst ∧
        (∀ p ∈ chosen, p.1 ∈ ownKeyed.map Prod.fst → p ∈ ownKeyed) ∧
        Binds sharedLimit "GetRows" (placed chosen [.path, .query, .header])
          { Session.blank with events } bound t ∧
        BindsEach ((sharedKeyed ++ ownKeyed).map Prod.fst) bound := by
  obtain ⟨bound, t, hrun, hlist⟩ : ∃ bound t,
      bindParameters sharedLimit rowsItem rowsOperation "GetRows" .blank = (.ok bound, t) ∧
        bound.map (fun b => (b.wireName, b.location, b.required)) =
          [("id", .path, true), ("limit", .query, false), ("page", .query, false),
            ("trace", .header, false)] :=
    ⟨_, _, rfl, rfl⟩
  refine ⟨bound, t, hrun, hlist, ?_⟩
  obtain ⟨shared, own, sharedKeyed, ownKeyed, hshared, hown, -, -, hbound⟩ :=
    bindParameters_bindsEach hrun
  cases hshared
  cases hown
  refine ⟨sharedKeyed, ownKeyed, hbound (List.forall_mem_append.mpr ⟨?_, ?_⟩)⟩
  · exact List.forall_mem_cons.mpr
      ⟨⟨_, _, rfl, rfl⟩, List.forall_mem_singleton.mpr ⟨_, _, rfl, rfl⟩⟩
  · exact List.forall_mem_cons.mpr ⟨⟨_, _, rfl, rfl⟩, List.forall_mem_cons.mpr ⟨⟨_, _, rfl, rfl⟩,
      List.forall_mem_cons.mpr ⟨⟨_, _, rfl, rfl⟩, List.forall_mem_singleton.mpr ⟨_, _, rfl, rfl⟩⟩⟩⟩

end ServiceContract
