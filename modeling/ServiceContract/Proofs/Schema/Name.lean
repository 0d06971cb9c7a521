import Mathlib.Data.List.Forall2
import ServiceContract.Proofs.Session.Growth
import ServiceContract.Proofs.Session.Start

/-!
# The names of declarations

Every declaration has the name of a reference or of an inline schema, its *origin*, and no origin is
declared twice. An inline schema, and a reference whose last key is not that of a component, get a
name that is not taken. A reference under the components gets the name of the component with its
last key, however the reference is spelled, so that two references with one last key have one name.

## Main definitions

* `Resolver.Named`: the name that a reference or an inline schema has in a session.
* `Resolver.Apart`: the names in a session are told apart, but for those of components.
* `Resolver.Makes`: the declarations that a step adds have new origins.
* `Resolver.Made`, `Session.SharesComponent`: the declarations with their origins, and origins with
  the name of one component.

## Main results

* `Resolver.nodup_names_iff`: when the declarations of a session have different names.
-/

namespace ServiceContract

open Build

namespace Session

/-- The names of the components. -/
def componentNames (s : Session) : List String :=
  s.components.map Prod.snd

theorem mem_componentNames {s : Session} {ref name : String}
    (h : componentName? s.components ref = some name) : name ∈ s.componentNames := by
  rw [componentName?] at h
  split_ifs at h
  exact List.mem_map.mpr ⟨_, mem_of_lookup h, rfl⟩

/-- Two different references among the origins have the name of one component. -/
def SharesComponent (s : Session) (os : List Origin) : Prop :=
  ∃ ref ref' name, ref ≠ ref' ∧ .reference ref ∈ os ∧ .reference ref' ∈ os ∧
    componentName? s.components ref = some name ∧ componentName? s.components ref' = some name

end Session

namespace Resolver

variable {r : Resolver} {s t u : Session} {o o' : Origin} {name name' : String}

/-! ### Names of origins -/

variable (r) in
/-- The origin has the name: a reference to a schema that declares a type, or an inline schema. -/
def Named (s : Session) : Origin → String → Prop
  | .reference ref, name =>
    (∃ schema, r.target ref = .ok (schema, true)) ∧ s.references.lookup ref = some (.declared name)
  | .inline a, name => s.inlines.lookup a = some name

theorem named_congr (href : t.references = s.references) (hin : t.inlines = s.inlines) :
    r.Named t o name ↔ r.Named s o name := by
  cases o with
  | reference ref => rw [Named, Named, href]
  | inline a => rw [Named, Named, hin]

/-- A reference that gets a name is one more origin with a name. -/
theorem named_of_reference {ref : String} {schema : Node} (hs : s.references.lookup ref = none)
    (ht : r.target ref = .ok (schema, true))
    (href : t.references = (ref, .declared name) :: s.references) (hin : t.inlines = s.inlines) :
    r.Named t o name' ↔ (o = .reference ref ∧ name' = name) ∨ r.Named s o name' := by
  cases o with
  | inline a => simp [Named, hin]
  | reference ref' =>
    rw [Named, Named, href]
    by_cases h : ref' = ref
    · subst h
      simp [hs, ht, eq_comm]
    · simp [lookup_cons_of_ne h, h]

/-- An inline schema that gets a name is one more origin with a name. -/
theorem named_of_inline {a : Address} (hs : s.inlines.lookup a = none)
    (href : t.references = s.references) (hin : t.inlines = (a, name) :: s.inlines) :
    r.Named t o name' ↔ (o = .inline a ∧ name' = name) ∨ r.Named s o name' := by
  cases o with
  | reference ref => simp [Named, href]
  | inline a' =>
    rw [Named, Named, hin]
    by_cases h : a' = a
    · subst h
      simp [hs, eq_comm]
    · simp [lookup_cons_of_ne h, h]

/-- An alias is no origin, whatever its type is. -/
theorem named_of_alias {ref : String} {schema : Node} {type : TypeExpr}
    (ht : r.target ref = .ok (schema, false)) (href : t.references = (ref, type) :: s.references)
    (hin : t.inlines = s.inlines) : r.Named t o name ↔ r.Named s o name := by
  cases o with
  | inline a => rw [Named, Named, hin]
  | reference ref' =>
    rw [Named, Named, href]
    by_cases h : ref' = ref
    · subst h
      simp [ht]
    · rw [lookup_cons_of_ne h]

/-! ### Names that are told apart -/

variable (r) in
/-- All names are taken. Only references to a component have its name, and they have no other one;
any other name belongs to one origin. -/
structure Apart (s : Session) : Prop where
  components : ∀ name ∈ s.componentNames, name ∈ s.taken
  taken : ∀ {o name}, r.Named s o name → name ∈ s.taken
  component : ∀ {o name}, r.Named s o name → name ∈ s.componentNames →
    ∃ ref, o = .reference ref ∧ componentName? s.components ref = some name
  reference : ∀ {ref name name'}, r.Named s (.reference ref) name →
    componentName? s.components ref = some name' → name = name'
  inj : ∀ {o o' name}, r.Named s o name → r.Named s o' name → name ∉ s.componentNames → o = o'

theorem Apart.congr (h : r.Apart s) (hnamed : ∀ {o name}, r.Named t o name ↔ r.Named s o name)
    (htaken : t.taken = s.taken) (hcomponents : t.components = s.components) : r.Apart t := by
  constructor
  · rw [Session.componentNames, hcomponents, htaken]
    exact h.components
  · rw [htaken]
    exact fun ho => h.taken (hnamed.mp ho)
  · rw [Session.componentNames, hcomponents]
    exact fun ho => h.component (hnamed.mp ho)
  · rw [hcomponents]
    exact fun ho => h.reference (hnamed.mp ho)
  · rw [Session.componentNames, hcomponents]
    exact fun ho ho' => h.inj (hnamed.mp ho) (hnamed.mp ho')

/-- Names are still told apart when one more origin has got a name, which was not taken or is the
name of the component that the origin refers to. -/
theorem Apart.add (h : r.Apart s) (hcomponents : t.components = s.components)
    (htaken : ∀ n ∈ s.taken, n ∈ t.taken)
    (hnamed : ∀ {o' n}, r.Named t o' n ↔ (o' = o ∧ n = name) ∨ r.Named s o' n)
    (hname : (name ∉ s.taken ∧ name ∈ t.taken ∧
        ∀ ref, o = .reference ref → componentName? s.components ref = none) ∨
      ∃ ref, o = .reference ref ∧ componentName? s.components ref = some name) : r.Apart t := by
  have hnames : t.componentNames = s.componentNames := by
    rw [Session.componentNames, hcomponents, Session.componentNames]
  -- A new name that belongs to another origin too is the name of a component.
  have hother {o' : Origin} (ho' : r.Named s o' name) : name ∈ s.componentNames := by
    rcases hname with ⟨hfree, -, -⟩ | ⟨ref, -, href⟩
    · exact absurd (h.taken ho') hfree
    · exact Session.mem_componentNames href
  constructor
  · rw [hnames]
    exact fun n hn => htaken n (h.components n hn)
  · intro o' n ho'
    rcases hnamed.mp ho' with ⟨rfl, rfl⟩ | ho'
    · rcases hname with ⟨-, ht, -⟩ | ⟨ref, -, href⟩
      · exact ht
      · exact htaken _ (h.components _ (Session.mem_componentNames href))
    · exact htaken _ (h.taken ho')
  · intro o' n ho' hn
    rw [hnames] at hn
    rw [hcomponents]
    rcases hnamed.mp ho' with ⟨rfl, rfl⟩ | ho'
    · rcases hname with ⟨hfree, -, -⟩ | href
      · exact absurd (h.components _ hn) hfree
      · exact href
    · exact h.component ho' hn
  · intro ref n n' ho' hn'
    rw [hcomponents] at hn'
    rcases hnamed.mp ho' with ⟨rfl, rfl⟩ | ho'
    · rcases hname with ⟨-, -, hnone⟩ | ⟨ref', href', hn⟩
      · rw [hnone ref rfl] at hn'
        cases hn'
      · cases href'
        exact Option.some.inj (hn.symm.trans hn')
    · exact h.reference ho' hn'
  · intro o₁ o₂ n h₁ h₂ hn
    rw [hnames] at hn
    rcases hnamed.mp h₁ with ⟨rfl, rfl⟩ | h₁
    · rcases hnamed.mp h₂ with ⟨rfl, -⟩ | h₂
      · rfl
      · exact absurd (hother h₂) hn
    · rcases hnamed.mp h₂ with ⟨rfl, rfl⟩ | h₂
      · exact absurd (hother h₁) hn
      · exact h.inj h₁ h₂ hn

/-! ### Steps that add declarations -/

variable (r) in
/-- Names are kept and told apart, and the declarations that are added are those of different
origins that had no name before. -/
structure Makes (s t : Session) : Prop where
  named : ∀ {o name}, r.Named s o name → r.Named t o name
  apart : r.Apart s → r.Apart t
  made : ∃ made : List (Origin × Declaration), t.declarations = s.declarations ++
    made.map Prod.snd ∧
    (∀ p ∈ made, r.Named t p.1 p.2.name) ∧ (made.map Prod.fst).Nodup ∧
      ∀ p ∈ made, ∀ name, ¬ r.Named s p.1 name

theorem Makes.of_declarations_eq (hnamed : ∀ {o name}, r.Named s o name → r.Named t o name)
    (hapart : r.Apart s → r.Apart t) (hd : t.declarations = s.declarations) : r.Makes s t :=
  ⟨hnamed, hapart, [],
    by rw [hd, List.map_nil, List.append_nil], fun _ hp => absurd hp List.not_mem_nil, .nil,
    fun _ hp => absurd hp List.not_mem_nil⟩

theorem Makes.trans (h : r.Makes s t) (h' : r.Makes t u) : r.Makes s u := by
  obtain ⟨made, hd, hnames, hnodup, hnew⟩ := h.made
  obtain ⟨made', hd', hnames', hnodup', hnew'⟩ := h'.made
  refine ⟨fun ho => h'.named (h.named ho), fun hs => h'.apart (h.apart hs), made ++ made',
    ?_, ?_, ?_, ?_⟩
  · rw [hd', hd, List.append_assoc, List.map_append]
  · intro p hp
    exact (List.mem_append.mp hp).elim (fun hp => h'.named (hnames p hp)) (hnames' p)
  · -- What is made in the first step has a name in between, and what is made in the second has
    -- none.
    rw [List.map_append]
    refine hnodup.append hnodup' fun o ho ho' => ?_
    obtain ⟨p, hp, rfl⟩ := List.mem_map.mp ho
    obtain ⟨p', hp', h⟩ := List.mem_map.mp ho'
    exact hnew' p' hp' _ (h ▸ hnames p hp)
  · intro p hp name hname
    rcases List.mem_append.mp hp with hp | hp
    · exact hnew p hp name hname
    · exact hnew' p hp name (h.named hname)

instance : IsPreorder Session r.Makes where
  refl _ := .of_declarations_eq id id rfl
  trans _ _ _ := Makes.trans

/-- A step that changes no names makes nothing. -/
theorem Makes.of_named_iff (hnamed : ∀ {o name}, r.Named t o name ↔ r.Named s o name)
    (htaken : t.taken = s.taken) (hcomponents : t.components = s.components)
    (hd : t.declarations = s.declarations) : r.Makes s t :=
  .of_declarations_eq hnamed.mpr (fun hs => hs.congr hnamed htaken hcomponents) hd

/-- A step that leaves all names and declarations as they are. -/
theorem Makes.of_eq (href : t.references = s.references) (hin : t.inlines = s.inlines)
    (htaken : t.taken = s.taken) (hcomponents : t.components = s.components)
    (hd : t.declarations = s.declarations) : r.Makes s t :=
  .of_named_iff (named_congr href hin) htaken hcomponents hd

/-- An origin gets its declaration behind those that are made after it has got its name. -/
theorem Makes.declare (h : r.Makes s t) (hd : t.declarations = s.declarations)
    (hnew : ∀ name, ¬ r.Named s o name) {d : Declaration} (ho : r.Named t o d.name)
    (htu : r.Makes t u) : r.Makes s (Build.declare d u).2 := by
  obtain ⟨made, hdu, hnames, hnodup, hos⟩ := htu.made
  have hu {o : Origin} {name : String} : r.Named (Build.declare d u).2 o name ↔ r.Named u o name :=
    named_congr rfl rfl
  have happly : (Build.declare d u).2.declarations = u.declarations ++ [d] := rfl
  refine ⟨fun ho => hu.mpr (htu.named (h.named ho)), fun hs => ?_, made ++ [(o, d)], ?_, ?_, ?_, ?_⟩
  · exact (htu.apart (h.apart hs)).congr hu rfl rfl
  · rw [happly, hdu, hd, List.map_append, List.append_assoc]
    rfl
  · intro p hp
    rw [hu]
    rcases List.mem_append.mp hp with hp | hp
    · exact hnames p hp
    · rw [List.mem_singleton.mp hp]
      exact htu.named ho
  · rw [List.map_append]
    refine hnodup.append (List.nodup_singleton o) fun o' ho' hmem => ?_
    obtain ⟨p, hp, rfl⟩ := List.mem_map.mp ho'
    have hp' : p.1 = o := List.mem_singleton.mp hmem
    exact hos p hp _ (hp' ▸ ho)
  · intro p hp name hname
    rcases List.mem_append.mp hp with hp | hp
    · exact hos p hp name (h.named hname)
    · rw [List.mem_singleton.mp hp] at hname
      exact hnew name hname

/-! ### Resolution -/

variable (r) in
/-- The session grows, and makes declarations on the way. -/
def GrowsMaking (s t : Session) : Prop :=
  r.Grows s t ∧ r.Makes s t

instance : IsPreorder Session r.GrowsMaking where
  refl s := ⟨refl_of r.Grows s, refl_of r.Makes s⟩
  trans _ _ _ h h' := ⟨trans_of r.Grows h.1 h'.1, h.2.trans h'.2⟩

section Step

variable {resolve : Node → String → Build TypeExpr}
  (hf : ∀ n hint, Moves r.GrowsMaking (resolve n hint))
include hf

/-- The declaration of an origin that has just got its name. -/
theorem declareType_makes {schema : Node} (h : r.Makes s t) (hd : t.declarations = s.declarations)
    (hnew : ∀ name, ¬ r.Named s o name) (ho : r.Named t o name) :
    r.Makes s (r.declareType resolve schema name t).2 := by
  rw [declareType_eq]
  cases hb : r.blueprint schema name with
  | error fault => exact h
  | ok blueprint =>
    cases blueprint with
    | enumeration valueType members description => exact h.declare hd hnew ho (refl_of r.Makes t)
    | record required properties description =>
      have hfields := (resolveFields_moves hf name required properties t).2
      change r.Makes s ((resolveFields resolve name required properties >>= fun fields =>
        Build.declare (.record name fields description)) t).2
      rw [bind_apply]
      rcases hres : resolveFields resolve name required properties t with ⟨_ | fields, u⟩
      · rw [hres] at hfields
        exact h.trans hfields
      · rw [hres] at hfields
        exact h.declare hd hnew ho hfields

/-- What a reference makes that gets a name and then its declaration. -/
theorem makes_of_reference {ref : String} {schema : Node} (hs : s.references.lookup ref = none)
    (ht : r.target ref = .ok (schema, true)) (hname : reserveReference ref s = (.ok name, t)) :
    r.Makes s (r.declareType resolve schema name t).2 := by
  obtain ⟨href, hin, hcomponents, htaken, hfresh⟩ := reserveReference_eq_ok hname
  have hnamed {o : Origin} {n : String} : r.Named t o n ↔
      (o = .reference ref ∧ n = name) ∨ r.Named s o n := named_of_reference hs ht href hin
  have hmakes : r.Makes s t := by
    refine .of_declarations_eq (fun ho => hnamed.mpr (.inr ho)) (fun hapart => ?_)
      (declarations_reserveReference hname)
    refine hapart.add hcomponents htaken hnamed ?_
    rcases hfresh with ⟨hc, hfree, hmem⟩ | hc
    · refine .inl ⟨hfree, hmem, fun ref' h => ?_⟩
      cases h
      exact hc
    · exact .inr ⟨ref, rfl, hc⟩
  refine declareType_makes hf hmakes (declarations_reserveReference hname) (fun n h => ?_)
    (hnamed.mpr (.inl ⟨rfl, rfl⟩))
  rw [Named, hs] at h
  cases h.2

/-- What an inline schema makes that gets a name and then its declaration. -/
theorem makes_of_inline {schema : Node} {hint : String}
    (hs : s.inlines.lookup schema.address = none)
    (hname : reserveInline schema hint s = (.ok name, t)) :
    r.Makes s (r.declareType resolve schema name t).2 := by
  obtain ⟨href, hin, hcomponents, htaken, hfree, hmem⟩ := reserveInline_eq_ok hname
  have hnamed {o : Origin} {n : String} : r.Named t o n ↔
      (o = .inline schema.address ∧ n = name) ∨ r.Named s o n := named_of_inline hs href hin
  have hmakes : r.Makes s t := by
    refine .of_declarations_eq (fun ho => hnamed.mpr (.inr ho)) (fun hapart => ?_)
      (declarations_reserveInline hname)
    exact hapart.add hcomponents htaken hnamed (.inl ⟨hfree, hmem, fun ref h => nomatch h⟩)
  refine declareType_makes hf hmakes (declarations_reserveInline hname) (fun n h => ?_)
    (hnamed.mpr (.inl ⟨rfl, rfl⟩))
  rw [Named, hs] at h
  cases h

theorem resolveStep_makes (schema : Node) (hint : String) :
    Moves r.GrowsMaking (r.resolveStep resolve schema hint) := by
  have hgrows (n : Node) (hint : String) :
      Moves r.Grows (resolve n hint) := fun s => (hf n hint s).1
  have hdeclare (n : Node) (name : String) : Moves r.Grows (r.declareType resolve n name) :=
    declareType_moves hgrows declare_grows n name
  refine resolveStep_moves hf (resolveReference_moves (fun {ref n s} hs ht hr => ⟨?_, ?_⟩)
    fun hs ht _ _ hname => ⟨?_, ?_⟩) (resolveInline_moves fun hs _ _ hname => ⟨?_, ?_⟩) schema hint
  · refine ⟨whileResolving_grows hgrows ref n _, ?_⟩
    have hmakes :=
      (hf n (Naming.pascal (referenceName ref)) { s with resolving := ref :: s.resolving }).2
    have hs : r.Makes s { s with resolving := ref :: s.resolving } := .of_eq rfl rfl rfl rfl rfl
    exact hs.trans (hmakes.trans (.of_eq rfl rfl rfl rfl rfl))
  · intro type t hres
    exact ⟨remember_grows hgrows hs ht hr hres type,
      .of_named_iff (named_of_alias ht rfl rfl) rfl rfl rfl⟩
  · exact trans_of _ (reserveReference_grows hs ht hname) (hdeclare _ _ _)
  · exact makes_of_reference hf hs ht hname
  · exact trans_of _ (reserveInline_grows hs hname) (hdeclare _ _ _)
  · exact makes_of_inline hf hs hname

end Step

theorem Partial.makes {fuel : Nat} {schema : Node} {hint : String}
    {out : Except Fault TypeExpr × Session} (h : r.Partial fuel schema hint s out) :
    r.GrowsMaking s out.2 := by
  induction h with
  | off fuel schema hint s fault => exact refl_of r.GrowsMaking s
  | step fuel schema hint s resolve _ ih => exact resolveStep_makes ih schema hint s

theorem Later.makes (h : r.Later s t) : r.Makes s t :=
  h.moves (fun _ hp => hp.makes.2) (fun _ _ => .of_eq rfl rfl rfl rfl rfl)
    (fun _ _ => .of_eq rfl rfl rfl rfl rfl) fun _ _ _ => .of_eq rfl rfl rfl rfl rfl

/-! ### The names at the start -/

/-- The names of components after one more are the ones before and the new one. -/
theorem mem_of_mem_insertComponent {key name n : String} {components : List (String × String)}
    (h : n ∈ (Session.insertComponent key name components).map Prod.snd) :
    n = name ∨ n ∈ components.map Prod.snd := by
  induction components with
  | nil => exact .inl (List.mem_singleton.mp h)
  | cons c components ih =>
    rw [Session.insertComponent] at h
    split_ifs at h
    · exact (List.mem_cons.mp h).imp_right fun h => List.mem_cons_of_mem _ h
    · rcases List.mem_cons.mp h with rfl | h
      · exact .inr List.mem_cons_self
      · exact (ih h).imp_right fun h => List.mem_cons_of_mem _ h

/-- The names of components are taken. -/
theorem componentNames_claimComponents (keys : List Node)
    (hs : ∀ n ∈ s.componentNames, n ∈ s.taken) :
    ∀ n ∈ (Session.claimComponents keys s).2.componentNames,
      n ∈ (Session.claimComponents keys s).2.taken := by
  induction keys generalizing s with
  | nil => exact hs
  | cons key keys ih =>
    rw [Session.claimComponents, bind_apply, lift_apply]
    cases key.asText with
    | error fault => exact hs
    | ok text =>
      refine ih fun n hn => ?_
      rcases mem_of_mem_insertComponent hn with rfl | hn
      · exact List.mem_cons_self
      · exact List.mem_cons_of_mem _ (hs n hn)

theorem start_apart (h : Session.start r.doc = .ok s) : r.Apart s := by
  obtain ⟨keys, -, hrun⟩ := Session.start_eq_ok h
  have htaken := componentNames_claimComponents (s := .blank) keys
    fun n hn => absurd hn List.not_mem_nil
  rw [hrun] at htaken
  have hnone {o : Origin} {name : String} : ¬ r.Named s o name := by
    rw [Session.start_eq h]
    cases o with
    | reference ref => exact fun ho => nomatch ho.2
    | inline a => exact fun ho => nomatch ho
  exact ⟨htaken, fun h => absurd h hnone, fun h => absurd h hnone, fun h => absurd h hnone,
    fun h => absurd h hnone⟩

variable (r) in
/-- The declarations with their origins: each one has the name of its origin, and no origin has
two. -/
structure Made (s : Session) (made : List (Origin × Declaration)) : Prop where
  declarations : s.declarations = made.map Prod.snd
  nodup : (made.map Prod.fst).Nodup
  named : ∀ p ∈ made, r.Named s p.1 p.2.name

variable {made : List (Origin × Declaration)}

/-- If the declarations have different names, no two references have the name of one component. -/
theorem Made.not_sharesComponent (h : r.Made s made) (hs : r.Apart s)
    (hnames : (made.map fun p => p.2.name).Nodup) : ¬ s.SharesComponent (made.map Prod.fst) := by
  rintro ⟨ref, ref', name, hne, href, href', hname, hname'⟩
  obtain ⟨p, hp, hpref⟩ := List.mem_map.mp href
  obtain ⟨p', hp', hpref'⟩ := List.mem_map.mp href'
  have hp₁ : r.Named s (.reference ref) p.2.name := hpref ▸ h.named p hp
  have hp₂ : r.Named s (.reference ref') p'.2.name := hpref' ▸ h.named p' hp'
  have heq : p.2.name = p'.2.name := (hs.reference hp₁ hname).trans (hs.reference hp₂ hname').symm
  have hpp := List.inj_on_of_nodup_map hnames hp hp' heq
  rw [← hpp, hpref] at hpref'
  exact hne (Origin.reference.inj hpref')

/-- If no two references have the name of one component, the declarations have different names. -/
theorem Made.nodup_names (h : r.Made s made) (hs : r.Apart s)
    (hshares : ¬ s.SharesComponent (made.map Prod.fst)) : (made.map fun p => p.2.name).Nodup := by
  refine (List.Nodup.of_map _ h.nodup).map_on fun p hp p' hp' heq => ?_
  refine List.inj_on_of_nodup_map h.nodup hp hp' ?_
  have hname' : r.Named s p'.1 p.2.name := heq ▸ h.named p' hp'
  by_cases hc : p.2.name ∈ s.componentNames
  · obtain ⟨ref, hp₁, href⟩ := hs.component (h.named p hp) hc
    obtain ⟨ref', hp₂, href'⟩ := hs.component hname' hc
    have hmem := List.mem_map_of_mem (f := Prod.fst) hp
    have hmem' := List.mem_map_of_mem (f := Prod.fst) hp'
    rw [hp₁] at hmem
    rw [hp₂] at hmem'
    by_contra hne
    rw [hp₁, hp₂] at hne
    exact hshares ⟨ref, ref', _, fun h => hne (h ▸ rfl), hmem, hmem', href, href'⟩
  · exact hs.inj (h.named p hp) hname' hc

/-- Every declaration has an origin of its own, whose name it has. The declarations have different
names exactly if no two different references among their origins have the name of one component. -/
theorem nodup_names_iff {start : Session} (hstart : Session.start r.doc = .ok start)
    (h : r.Later start s) :
    ∃ made, r.Made s made ∧ ((s.declarations.map Declaration.name).Nodup ↔
      ¬ s.SharesComponent (made.map Prod.fst)) := by
  have hmakes := h.makes
  have hs : r.Apart s := hmakes.apart (start_apart hstart)
  obtain ⟨made, hd, hnames, hnodup, -⟩ := hmakes.made
  have hd : s.declarations = made.map Prod.snd := by
    rw [hd, Session.start_eq hstart]
    rfl
  have hmade : r.Made s made := ⟨hd, hnodup, hnames⟩
  have hmap : s.declarations.map Declaration.name = made.map fun p => p.2.name := by
    rw [hd, List.map_map]
    rfl
  refine ⟨made, hmade, ?_⟩
  rw [hmap]
  exact ⟨hmade.not_sharesComponent hs, hmade.nodup_names hs⟩

/-! ### Two references with one name -/

/-- A document in which a property of one component has the key of another component. -/
def owners : Resolver where
  doc := .ofValue (.map [(.text "components", .map [(.text "schemas", .map [
    (.text "Owner", .map [(.text "properties", .map [(.text "name", .map [])])]),
    (.text "Pet", .map [(.text "properties", .map [
      (.text "Owner", .map [(.text "properties", .map [(.text "id", .map [])])])])])])])])
  primitives := pythonPrimitives

/-- The session after a reference to the component and one to the property. -/
def ownersAfter (s : Session) : Session :=
  (owners.resolve (.ofReference "#/components/schemas/Pet/properties/Owner") ""
    (owners.resolve (.ofReference "#/components/schemas/Owner") "" s).2).2

theorem later_ownersAfter (s : Session) : owners.Later s (ownersAfter s) :=
  (Later.refl.resolve _ _).resolve _ _

theorem names_ownersAfter :
    (Session.start owners.doc).map (fun s => (ownersAfter s).declarations.map Declaration.name) =
      .ok ["Owner", "Owner"] := by
  rfl

theorem nodup_names_iff_owners :
    ∃ start s, Session.start owners.doc = .ok start ∧ owners.Later start s ∧
      ∃ made, owners.Made s made ∧ ((s.declarations.map Declaration.name).Nodup ↔
        ¬ s.SharesComponent (made.map Prod.fst)) := by
  cases hstart : Session.start owners.doc with
  | error fault => exact nomatch (congrArg (Except.map _) hstart).symm.trans names_ownersAfter
  | ok start =>
    exact ⟨start, ownersAfter start, rfl, later_ownersAfter start,
      nodup_names_iff hstart (later_ownersAfter start)⟩

/-- Declarations may have one name: that of a component, which the reference to a property with the
same key gets too. -/
theorem not_nodup_names_owners :
    ¬ ∀ start s, Session.start owners.doc = .ok start → owners.Later start s →
      (s.declarations.map Declaration.name).Nodup := by
  intro h
  have hnames := names_ownersAfter
  cases hstart : Session.start owners.doc with
  | error fault =>
    rw [hstart] at hnames
    cases hnames
  | ok start =>
    rw [hstart] at hnames
    have hnames : (ownersAfter start).declarations.map Declaration.name = ["Owner", "Owner"] :=
      Except.ok.inj hnames
    have hnodup := h start _ hstart (later_ownersAfter start)
    rw [hnames] at hnodup
    exact absurd hnodup (by decide)

end Resolver

end ServiceContract
