import ServiceContract.Proofs.Schema.Form

/-!
# The declarations that a type needs

A resolution that succeeds gives a type and adds declarations. The names in the type are mentioned
by the session afterwards, as the names of references and inline schemas; what the session mentions
and did not mention before is declared; and all that is declared on the way is needed by the type,
through what declarations mention. Each declaration comes behind those that it mentions, unless it
is itself needed by what it mentions.

## Main definitions

* `Needed`: the names reached from some names through what declarations mention.
* `InOrder`: declarations that come behind what they mention, as far as they are not needed by it.
* `Session.Mentions`: the names in the types of references and of inline schemas.
* `Session.Adds`: how a step that succeeds adds declarations for some names.

## Main results

* `Resolver.resolveWithin_adds`: what a resolution adds for its type.
-/

namespace ServiceContract

/-! ### Needed names -/

/-- The names that are reached from those with `root` through what the declarations `ds` mention. -/
inductive Needed (ds : List Declaration) (root : String → Prop) : String → Prop
  | root {n : String} (h : root n) : Needed ds root n
  | mentioned {d : Declaration} {n : String} (hd : d ∈ ds) (h : Needed ds root d.name)
    (hn : n ∈ d.mentioned) : Needed ds root n

/-- What is needed by needed names is needed. -/
theorem Needed.trans {ds es : List Declaration} {p q : String → Prop} {n : String}
    (h : Needed ds p n) (hds : ∀ d ∈ ds, d ∈ es) (hp : ∀ n, p n → Needed es q n) :
    Needed es q n := by
  induction h with
  | root h => exact hp _ h
  | mentioned hd _ hn ih => exact .mentioned (hds _ hd) ih hn

theorem Needed.mono {ds es : List Declaration} {p : String → Prop} {n : String} (h : Needed ds p n)
    (hds : ∀ d ∈ ds, d ∈ es) : Needed es p n :=
  h.trans hds fun _ hn => .root hn

/-! ### Order -/

/-- Declarations in order: what one of them mentions is known beforehand, or declared up to there,
or it needs that declaration in turn. -/
def InOrder (known : String → Prop) (ds : List Declaration) : Prop :=
  ∀ ⦃pre d post⦄, ds = pre ++ d :: post → ∀ n ∈ d.mentioned,
    known n ∨ n ∈ (pre ++ [d]).map Declaration.name ∨ Needed ds (· = n) d.name

namespace InOrder

variable {known known' : String → Prop} {ds es : List Declaration}

theorem nil : InOrder known [] := fun pre d _ h =>
  absurd (h ▸ List.mem_append_right pre List.mem_cons_self : d ∈ []) List.not_mem_nil

/-- A place in two lists behind each other is a place in one of them. -/
theorem split {pre post : List Declaration} {d : Declaration} (h : ds ++ es = pre ++ d :: post) :
    (∃ post', ds = pre ++ d :: post') ∨ ∃ pre', pre = ds ++ pre' ∧ es = pre' ++ d :: post := by
  rcases List.append_eq_append_iff.mp h with ⟨pre', hpre, hes⟩ | ⟨post', hds, hpost⟩
  · exact .inr ⟨pre', hpre, hes⟩
  · rcases List.cons_eq_append_iff.mp hpost with ⟨rfl, hes⟩ | ⟨post', rfl, -⟩
    · exact .inr ⟨[], by rw [hds, List.append_nil, List.append_nil], hes⟩
    · exact .inl ⟨post', hds⟩

/-- Behind declarations in order come others, which may know the former. -/
theorem append (hds : InOrder known ds) (hes : InOrder known' es)
    (hk : ∀ n, known' n → known n ∨ n ∈ ds.map Declaration.name) : InOrder known (ds ++ es) := by
  intro pre d post hsplit n hn
  rcases split hsplit with ⟨post', hpre⟩ | ⟨pre', rfl, hpost⟩
  · exact (hds hpre n hn).imp_right (.imp_right fun hn => hn.mono fun _ => List.mem_append_left es)
  · rw [List.append_assoc, List.map_append, List.mem_append]
    rcases hes hpost n hn with hn | hn | hn
    · exact (hk n hn).imp_right fun hn => .inl (.inl hn)
    · exact .inr (.inl (.inr hn))
    · exact .inr (.inr (hn.mono fun _ => List.mem_append_right ds))

/-- A declaration comes behind those that it needs, which may know its name. -/
theorem concat {d : Declaration} (hds : InOrder (fun n => n = d.name ∨ known n) ds)
    (hneeded : ∀ e ∈ ds, Needed ds (· ∈ d.mentioned) e.name)
    (hd : ∀ n ∈ d.mentioned, (n = d.name ∨ known n) ∨ n ∈ ds.map Declaration.name) :
    InOrder known (ds ++ [d]) := by
  intro pre e post hsplit n hn
  rcases split hsplit with ⟨post', hpre⟩ | ⟨pre', rfl, hpost⟩
  · rcases hds hpre n hn with (rfl | hn) | hn
    · have he : e ∈ ds := hpre ▸ List.mem_append_right pre List.mem_cons_self
      refine .inr (.inr ((hneeded e he).trans (fun _ => List.mem_append_left [d]) fun n hn => ?_))
      exact .mentioned (List.mem_append_right ds (List.mem_singleton.mpr rfl)) (.root rfl) hn
    · exact .inl hn
    · exact .inr (hn.imp_right fun hn => hn.mono fun _ => List.mem_append_left [d])
  · obtain ⟨rfl, h⟩ := List.append_eq_singleton_iff.mp hpost.symm |>.resolve_right (by simp)
    obtain ⟨rfl, -⟩ := List.cons.inj h
    rw [List.append_nil, List.map_append, List.mem_append]
    rcases hd n hn with (rfl | hn) | hn
    · exact .inr (.inl (.inr (List.mem_singleton.mpr rfl)))
    · exact .inl hn
    · exact .inr (.inl (.inl hn))

end InOrder

/-! ### Mentioned names -/

namespace Session

/-- The name of an inline schema, or a name in the type of a reference. -/
def Mentions (s : Session) (n : String) : Prop :=
  (∃ e ∈ s.references, n ∈ e.2.names) ∨ ∃ e ∈ s.inlines, e.2 = n

/-- A reference that gets a type adds the names in it. -/
theorem mentions_reference {s t : Session} {ref : String} {type : TypeExpr}
    (href : t.references = (ref, type) :: s.references) (hin : t.inlines = s.inlines) (n : String) :
    t.Mentions n ↔ n ∈ type.names ∨ s.Mentions n := by
  simp only [Mentions, href, hin, List.mem_cons, or_and_right, exists_or, exists_eq_left, or_assoc]

/-- A reference that gets a name adds it. -/
theorem mentions_named {s t : Session} {ref name : String}
    (href : t.references = (ref, .declared name) :: s.references) (hin : t.inlines = s.inlines)
    (n : String) : t.Mentions n ↔ n = name ∨ s.Mentions n := by
  rw [mentions_reference href hin, TypeExpr.names, List.mem_singleton]

/-- An inline schema that gets a name adds it. -/
theorem mentions_inline {s t : Session} {a : Address} {name : String}
    (href : t.references = s.references) (hin : t.inlines = (a, name) :: s.inlines) (n : String) :
    t.Mentions n ↔ n = name ∨ s.Mentions n := by
  simp only [Mentions, href, hin, List.mem_cons, or_and_right, exists_or, exists_eq_left]
  rw [or_left_comm, @eq_comm _ name]

/-- A step that succeeds goes from `s` to `t` and adds the declarations `ds` for the names
`names`. -/
structure Adds (ds : List Declaration) (names : List String) (s t : Session) : Prop where
  declarations : t.declarations = s.declarations ++ ds
  methods : t.methods = s.methods
  kept : ∀ {n}, s.Mentions n → t.Mentions n
  declared : ∀ {n}, t.Mentions n → s.Mentions n ∨ n ∈ ds.map Declaration.name
  mentioned : ∀ d ∈ ds, ∀ n ∈ d.mentioned, t.Mentions n
  named : ∀ n ∈ names, t.Mentions n
  needed : ∀ d ∈ ds, Needed ds (· ∈ names) d.name
  ordered : InOrder s.Mentions ds

namespace Adds

variable {ds es : List Declaration} {ns ms : List String} {s t u : Session}

/-- For names that are mentioned already nothing is to be added. -/
theorem none (hn : ∀ n ∈ ns, s.Mentions n) (hd : t.declarations = s.declarations)
    (hm : t.methods = s.methods) (hs : ∀ n, t.Mentions n ↔ s.Mentions n) : Adds [] ns s t where
  declarations := by rw [hd, List.append_nil]
  methods := hm
  kept h := (hs _).mpr h
  declared h := .inl ((hs _).mp h)
  mentioned _ hd := absurd hd List.not_mem_nil
  named n h := (hs n).mpr (hn n h)
  needed _ hd := absurd hd List.not_mem_nil
  ordered := .nil

theorem refl (s : Session) : Adds [] [] s s :=
  none (fun _ h => absurd h List.not_mem_nil) rfl rfl fun _ => .rfl

/-- What a step adds does not depend on what else the sessions hold. -/
theorem congr {s' t' : Session} (h : Adds ds ns s t) (hs : s'.declarations = s.declarations)
    (hsm : s'.methods = s.methods) (ht : t'.declarations = t.declarations)
    (htm : t'.methods = t.methods) (hs' : ∀ n, s'.Mentions n ↔ s.Mentions n)
    (ht' : ∀ n, t'.Mentions n ↔ t.Mentions n) : Adds ds ns s' t' where
  declarations := by rw [ht, hs, h.declarations]
  methods := by rw [htm, hsm, h.methods]
  kept hn := (ht' _).mpr (h.kept ((hs' _).mp hn))
  declared hn := (h.declared ((ht' _).mp hn)).imp_left (hs' _).mpr
  mentioned d hd n hn := (ht' n).mpr (h.mentioned d hd n hn)
  named n hn := (ht' n).mpr (h.named n hn)
  needed := h.needed
  ordered := funext (fun n => propext (hs' n)) ▸ h.ordered

theorem trans (h : Adds ds ns s t) (h' : Adds es ms t u) : Adds (ds ++ es) (ns ++ ms) s u where
  declarations := by rw [h'.declarations, h.declarations, List.append_assoc]
  methods := h'.methods.trans h.methods
  kept hs := h'.kept (h.kept hs)
  declared hu := by
    rw [List.map_append, List.mem_append]
    rcases h'.declared hu with ht | ht
    · exact (h.declared ht).imp_right .inl
    · exact .inr (.inr ht)
  mentioned d hd n hn := by
    rcases List.mem_append.mp hd with hd | hd
    · exact h'.kept (h.mentioned d hd n hn)
    · exact h'.mentioned d hd n hn
  named n hn := (List.mem_append.mp hn).elim (fun hn => h'.kept (h.named n hn)) (h'.named n)
  needed d hd := by
    rcases List.mem_append.mp hd with hd | hd
    · exact (h.needed d hd).trans (fun _ => List.mem_append_left es)
        fun n hn => .root (List.mem_append_left ms hn)
    · exact (h'.needed d hd).trans (fun _ => List.mem_append_right ds)
        fun n hn => .root (List.mem_append_right ns hn)
  ordered := h.ordered.append h'.ordered fun _ => h.declared

end Adds

end Session

/-! ### Declarations -/

namespace Resolver

open Build Session

variable {r : Resolver} {resolve : Node → String → Build TypeExpr}

section Step

variable (hf : ∀ ⦃n hint s type t⦄, resolve n hint s = (.ok type, t) → ∃ ds, Adds ds type.names s t)
include hf

theorem resolveFields_adds {owner : String} {required : List Scalar}
    {properties : List (Scalar × Node)} {fields : List Field} {s t : Session}
    (h : resolveFields resolve owner required properties s = (.ok fields, t)) :
    ∃ ds, Adds ds (fields.flatMap fun f => f.type.names) s t := by
  induction properties generalizing s fields with
  | nil =>
    obtain ⟨rfl, rfl⟩ := pure_eq_ok.mp h
    exact ⟨[], .refl _⟩
  | cons e properties ih =>
    obtain ⟨wireName, -, h⟩ := lift_bind_eq_ok.mp h
    obtain ⟨type, s₁, htype, h⟩ := bind_eq_ok.mp h
    obtain ⟨value, -, h⟩ := lift_bind_eq_ok.mp h
    obtain ⟨description, -, h⟩ := lift_bind_eq_ok.mp h
    obtain ⟨fields, s₂, hfields, h⟩ := bind_eq_ok.mp h
    obtain ⟨rfl, rfl⟩ := pure_eq_ok.mp h
    obtain ⟨ds, hds⟩ := hf htype
    obtain ⟨es, hes⟩ := ih hfields
    exact ⟨ds ++ es, hds.trans hes⟩

/-- The declaration of a type comes behind those that its fields add. -/
theorem declareType_adds {schema : Node} {name : String} {s t : Session}
    (h : r.declareType resolve schema name s = (.ok (), t)) :
    ∃ ds d u, d.name = name ∧ Adds ds d.mentioned s u ∧
      t.declarations = u.declarations ++ [d] ∧ t.methods = u.methods ∧
        ∀ n, t.Mentions n ↔ u.Mentions n := by
  rw [declareType_eq, lift_bind_eq_ok] at h
  obtain ⟨blueprint, -, h⟩ := h
  cases blueprint with
  | enumeration valueType members description =>
    cases h
    exact ⟨[], .enumeration name valueType members description, s, rfl, .refl s, rfl, rfl,
      fun _ => .rfl⟩
  | record required properties description =>
    obtain ⟨fields, u, hfields, h⟩ := bind_eq_ok.mp h
    cases h
    obtain ⟨ds, hds⟩ := resolveFields_adds hf hfields
    exact ⟨ds, .record name fields description, u, rfl, hds, rfl, rfl, fun _ => .rfl⟩

/-- A type that gets a name and then a declaration is added for its name. -/
theorem adds_of_declareType {schema : Node} {name : String} {s s₁ t : Session}
    (h : r.declareType resolve schema name s₁ = (.ok (), t))
    (hd : s₁.declarations = s.declarations) (hm : s₁.methods = s.methods)
    (hs : ∀ n, s₁.Mentions n ↔ n = name ∨ s.Mentions n) : ∃ ds, Adds ds [name] s t := by
  obtain ⟨ds, d, u, rfl, hu, htd, htm, ht⟩ := declareType_adds hf h
  have hname : u.Mentions d.name := hu.kept ((hs _).mpr (.inl rfl))
  refine ⟨ds ++ [d], ?_⟩
  refine
    { declarations := by rw [htd, hu.declarations, hd, List.append_assoc]
      methods := htm.trans (hu.methods.trans hm)
      kept := fun hn => (ht _).mpr (hu.kept ((hs _).mpr (.inr hn)))
      declared := fun {n} hn => ?_
      mentioned := fun e he n hn => (ht n).mpr ?_
      named := fun n hn => (ht n).mpr (List.mem_singleton.mp hn ▸ hname)
      needed := fun e he => ?_
      ordered := ?_ }
  · rw [List.map_append, List.mem_append]
    rcases hu.declared ((ht n).mp hn) with hn | hn
    · rcases (hs n).mp hn with rfl | hn
      · exact .inr (.inr (List.mem_singleton.mpr rfl))
      · exact .inl hn
    · exact .inr (.inl hn)
  · rcases List.mem_append.mp he with he | he
    · exact hu.mentioned e he n hn
    · exact hu.named n (List.mem_singleton.mp he ▸ hn)
  · have hroot : Needed (ds ++ [d]) (· ∈ [d.name]) d.name := .root (List.mem_singleton.mpr rfl)
    rcases List.mem_append.mp he with he | he
    · exact (hu.needed e he).trans (fun _ => List.mem_append_left [d])
        fun n hn => .mentioned (List.mem_append_right ds (List.mem_singleton.mpr rfl)) hroot hn
    · exact List.mem_singleton.mp he ▸ hroot
  · have hs₁ : s₁.Mentions = fun n => n = d.name ∨ s.Mentions n := funext fun n => propext (hs n)
    exact .concat (hs₁ ▸ hu.ordered) hu.needed fun n hn =>
      (hu.declared (hu.named n hn)).imp_left (hs n).mp

/-! ### Resolution -/

theorem resolveReference_adds {ref : String} {type : TypeExpr} {s t : Session}
    (h : r.resolveReference resolve ref s = (.ok type, t)) : ∃ ds, Adds ds type.names s t := by
  cases referenceOutcome h with
  | cached hs =>
    exact ⟨[], .none (fun n hn => .inl ⟨_, mem_of_lookup hs, hn⟩) rfl rfl fun _ => .rfl⟩
  | @inherited schema _ u hs ht hr hrun =>
    obtain ⟨ds, hds⟩ := hf hrun
    -- Recording the alias adds no name: the names in its type are mentioned already.
    have hmem (v : Session) (hv : v.references = (ref, type) :: u.references)
        (hin : v.inlines = u.inlines) (n : String) : v.Mentions n ↔ u.Mentions n :=
      (mentions_reference hv hin n).trans (or_iff_right_of_imp (hds.named n))
    exact ⟨ds, hds.congr rfl rfl rfl rfl (fun _ => .rfl) (hmem _ rfl rfl)⟩
  | @named schema name _ _ hs ht hname hdeclare =>
    obtain ⟨_, taken, -, hname'⟩ := reserveReference_apply ref s
    rw [hname'] at hname
    cases hname
    exact adds_of_declareType (s := s) hf hdeclare rfl rfl (mentions_named (s := s) rfl rfl)

theorem resolveInline_adds {schema : Node} {hint : String} {type : TypeExpr} {s t : Session}
    (h : r.resolveInline resolve schema hint s = (.ok type, t)) : ∃ ds, Adds ds type.names s t := by
  cases inlineOutcome h with
  | cached hs =>
    refine ⟨[], .none (fun n hn => .inr ⟨_, mem_of_lookup hs, ?_⟩) rfl rfl fun _ => .rfl⟩
    exact (List.mem_singleton.mp hn).symm
  | new hs hname hdeclare =>
    cases hname
    exact adds_of_declareType (s := s) hf hdeclare rfl rfl (mentions_inline (s := s) rfl rfl)

theorem resolveStep_adds {schema : Node} {hint : String} {type : TypeExpr} {s t : Session}
    (h : r.resolveStep resolve schema hint s = (.ok type, t)) : ∃ ds, Adds ds type.names s t := by
  rw [resolveStep_eq, lift_bind_eq_ok] at h
  obtain ⟨form, -, h⟩ := h
  cases form with
  | absent =>
    obtain ⟨rfl, rfl⟩ := pure_eq_ok.mp h
    exact ⟨[], .refl _⟩
  | reference ref => exact resolveReference_adds hf h
  | wrapper inner => exact hf h
  | inline => exact resolveInline_adds hf h
  | list items =>
    obtain ⟨item, t', hitem, h⟩ := bind_eq_ok.mp h
    obtain ⟨rfl, rfl⟩ := pure_eq_ok.mp h
    obtain ⟨ds, hds⟩ := hf hitem
    exact ⟨ds, hds⟩
  | map values =>
    obtain ⟨value, t', hvalue, h⟩ := bind_eq_ok.mp h
    obtain ⟨rfl, rfl⟩ := pure_eq_ok.mp h
    obtain ⟨ds, hds⟩ := hf hvalue
    exact ⟨ds, hds⟩
  | primitive name =>
    obtain ⟨rfl, rfl⟩ := pure_eq_ok.mp h
    exact ⟨[], .refl _⟩

end Step

/-- A resolution adds what its type needs, and the names in its type are mentioned afterwards. -/
theorem resolveWithin_adds {fuel : Nat} {schema : Node} {hint : String} {type : TypeExpr}
    {s t : Session} (h : r.resolveWithin fuel schema hint s = (.ok type, t)) :
    ∃ ds, Adds ds type.names s t := by
  induction fuel generalizing schema hint s type t with
  | zero => cases h
  | succ fuel ih => exact resolveStep_adds (fun _ _ _ _ _ h => ih h) h

end Resolver

end ServiceContract
