import ServiceContract.Proofs.Schema.Cover

/-!
# Resolutions that follow others

A session lags behind another one that knows what it knows and a closed set besides. Whatever is
resolved with success in the session that lags behind is resolved with success in the other one too:
where the latter has a type at hand already, the former stays within the closed set, and everywhere
else both go the same way. Afterwards the one still lags behind the other.

## Main definitions

* `Session.Lags`: a session that lags behind another one by a set.
* `Build.Follows`: a step that succeeds wherever another one does that lags behind.

## Main results

* `Resolver.resolveWithin_follows`: resolutions follow those that lag behind.
-/

namespace ServiceContract

open Build

variable {D : Origin → Prop}

/-! ### Lagging behind -/

namespace Session

/-- The session `b` knows what `a` knows, and the set `D` besides. -/
structure Lags (D : Origin → Prop) (a b : Session) : Prop where
  known : ∀ {o}, a.Knows o → b.Knows o
  covered : ∀ {o}, D o → b.Knows o
  rest : ∀ {o}, b.Knows o → D o ∨ a.Knows o
  resolving : ∀ {ref}, ref ∈ b.resolving → ref ∈ a.resolving

namespace Lags

variable {a b a' b' : Session}

/-- What else the sessions hold does not matter. -/
theorem congr (h : Lags D a b) (ha : ∀ {o}, a'.Knows o ↔ a.Knows o)
    (hb : ∀ {o}, b'.Knows o ↔ b.Knows o)
    (hr : ∀ {ref}, ref ∈ b'.resolving → ref ∈ a'.resolving) : Lags D a' b' where
  known ho := hb.mpr (h.known (ha.mp ho))
  covered ho := hb.mpr (h.covered ho)
  rest ho := (h.rest (hb.mp ho)).imp_right ha.mpr
  resolving := hr

/-- Both sessions meet one more reference or inline schema. -/
theorem meet {o : Origin} (h : Lags D a b) (ha : ∀ {o'}, a'.Knows o' ↔ o' = o ∨ a.Knows o')
    (hb : ∀ {o'}, b'.Knows o' ↔ o' = o ∨ b.Knows o')
    (hr : ∀ {ref}, ref ∈ b'.resolving → ref ∈ a'.resolving) : Lags D a' b' where
  known ho := hb.mpr ((ha.mp ho).imp_right h.known)
  covered ho := hb.mpr (.inr (h.covered ho))
  rest ho := by
    rcases hb.mp ho with rfl | ho
    · exact .inr (ha.mpr (.inl rfl))
    · exact (h.rest ho).imp_right fun ho => ha.mpr (.inr ho)
  resolving := hr

/-- The session that lags behind meets what is in the set. -/
theorem within {r : Resolver} {α : Type} {m : Build α} (h : Lags D a b) (hm : Within D m)
    (hg : r.Grows a (m a).2) : Lags D (m a).2 b where
  known ho := ((hm a).1 _ ho).elim h.known h.covered
  covered := h.covered
  rest ho := (h.rest ho).imp_right hg.knows
  resolving hr := by
    rw [hg.resolving]
    exact h.resolving hr

end Lags

end Session

/-! ### Following -/

open Session

namespace Build

variable {α β : Type} {m m' : Build α} {k k' : α → Build β}

/-- Whenever the step `m` succeeds, `m'` does so from every session behind which the former lags,
and the former lags behind the latter afterwards. -/
def Follows (D : Origin → Prop) (m m' : Build α) : Prop :=
  ∀ ⦃a b⦄, Lags D a b → ∀ ⦃x t⦄, m a = (.ok x, t) → ∃ y u, m' b = (.ok y, u) ∧ Lags D t u

namespace Follows

theorem pure (x y : α) : Follows D (Pure.pure x) (Pure.pure y) := fun _ b h _ _ hm => by
  obtain ⟨-, rfl⟩ := pure_eq_ok.mp hm
  exact ⟨y, b, rfl, h⟩

theorem bind (hm : Follows D m m') (hk : ∀ x y, Follows D (k x) (k' y)) :
    Follows D (m >>= k) (m' >>= k') := fun a b h z t hmk => by
  obtain ⟨x, s, hrun, hmk⟩ := bind_eq_ok.mp hmk
  obtain ⟨y, u, hrun', hs⟩ := hm h hrun
  obtain ⟨w, v, hrun'', ht⟩ := hk x y hs hmk
  exact ⟨w, v, bind_eq_ok.mpr ⟨y, u, hrun', hrun''⟩, ht⟩

theorem lift_bind {x y : Except Fault α} (hxy : Agrees x y)
    (hk : ∀ a, x = .ok a → Follows D (k a) (k' a)) :
    Follows D ((liftM x : Build α) >>= k) ((liftM y : Build α) >>= k') := fun a b h z t hmk => by
  obtain ⟨c, hc, hmk⟩ := lift_bind_eq_ok.mp hmk
  obtain ⟨w, v, hrun, ht⟩ := hk c hc h hmk
  exact ⟨w, v, lift_bind_eq_ok.mpr ⟨c, hxy c hc, hrun⟩, ht⟩

theorem declare (d d' : Declaration) : Follows D (Build.declare d) (Build.declare d') :=
  fun a b h x t hm => by
    cases hm
    exact ⟨(), _, rfl, h.congr (knows_congr rfl rfl) (knows_congr rfl rfl) h.resolving⟩

theorem remember (ref : String) (type type' : TypeExpr) :
    Follows D (Build.remember ref type) (Build.remember ref type') := fun a b h x t hm => by
  cases hm
  exact ⟨(), _, rfl, h.meet (knows_reference (s := a) rfl rfl) (knows_reference (s := b) rfl rfl)
    h.resolving⟩

theorem reserveReference (ref : String) :
    Follows D (Build.reserveReference ref) (Build.reserveReference ref) := fun a b h name t hm => by
  obtain ⟨name₁, taken₁, -, hrun₁⟩ := reserveReference_apply ref a
  obtain ⟨name₂, taken₂, -, hrun₂⟩ := reserveReference_apply ref b
  rw [hrun₁] at hm
  cases hm
  exact ⟨name₂, _, hrun₂, h.meet (knows_reference (s := a) rfl rfl)
    (knows_reference (s := b) rfl rfl) h.resolving⟩

theorem reserveInline (schema : Node) (hint hint' : String) :
    Follows D (Build.reserveInline schema hint) (Build.reserveInline schema hint') :=
  fun a b h name t hm => by
    rw [reserveInline_apply] at hm
    cases hm
    exact ⟨_, _, reserveInline_apply schema hint' b,
      h.meet (knows_inline (s := a) rfl rfl) (knows_inline (s := b) rfl rfl) h.resolving⟩

/-- The aliases in progress are the same after a step as before it. -/
theorem whileResolving {r : Resolver} (hm : Follows D m m') (hg : Moves r.Grows m)
    (hg' : Moves r.Grows m') (ref : String) :
    Follows D (Build.whileResolving ref m) (Build.whileResolving ref m') := fun a b h x t hrun => by
  have ha := (hg { a with resolving := ref :: a.resolving }).resolving
  have hb := (hg' { b with resolving := ref :: b.resolving }).resolving
  rw [whileResolving_apply] at hrun
  obtain ⟨hx, rfl⟩ := Prod.mk.inj hrun
  have hstart : Lags D { a with resolving := ref :: a.resolving }
      { b with resolving := ref :: b.resolving } :=
    h.congr (knows_congr rfl rfl) (knows_congr rfl rfl) fun hr =>
      List.mem_cons.mpr ((List.mem_cons.mp hr).imp_right h.resolving)
  obtain ⟨y, u, hrun', hlags⟩ := hm hstart (Prod.ext hx rfl)
  rw [hrun'] at hb
  refine ⟨y, { u with resolving := u.resolving.erase ref }, ?_, ?_⟩
  · rw [whileResolving_apply, hrun']
  · refine hlags.congr (knows_congr rfl rfl) (knows_congr rfl rfl) fun {ref'} hr => ?_
    have hr : ref' ∈ u.resolving.erase ref := hr
    change ref' ∈ List.erase _ ref
    rw [hb, List.erase_cons_head] at hr
    rw [ha, List.erase_cons_head]
    exact h.resolving hr

end Follows

end Build

namespace Resolver

variable {r : Resolver} {schema : Node}

section Step

variable {resolve : Node → String → Build TypeExpr}
  (hf : ∀ n hint hint', r.doc.Part n → Follows D (resolve n hint) (resolve n hint'))
include hf

theorem resolveFields_follows {owner owner' : String} {required : List Scalar}
    {properties : List (Scalar × Node)} (hp : ∀ e ∈ properties, r.doc.Part e.2) :
    Follows D (resolveFields resolve owner required properties)
      (resolveFields resolve owner' required properties) := by
  induction properties with
  | nil => exact .pure _ _
  | cons e properties ih =>
    have hpart := (Document.part_hereditary r.doc).orEmpty (hp e List.mem_cons_self)
    refine .lift_bind (.refl _) fun wireName _ => .bind (hf _ _ _ hpart) fun type type' => ?_
    refine .lift_bind (.refl _) fun value _ => .lift_bind (.refl _) fun description _ => ?_
    exact .bind (ih fun e he => hp e (List.mem_cons_of_mem _ he)) fun fields fields' => .pure _ _

theorem declareType_follows (hp : r.doc.Part schema) (name name' : String) :
    Follows D (r.declareType resolve schema name) (r.declareType resolve schema name') := by
  rw [declareType_eq, declareType_eq]
  refine .lift_bind blueprint_agrees fun blueprint hb => ?_
  cases blueprint with
  | enumeration => exact .declare _ _
  | record required properties description =>
    have hparts := (Document.part_hereditary r.doc).blueprint rfl hp hb
    exact .bind (resolveFields_follows hf hparts) fun fields fields' => .declare _ _

variable (hg : ∀ n hint, Moves r.Grows (resolve n hint))
include hg

/-- A reference is followed: one that only the session behind has to resolve is in the set. -/
theorem resolveReference_follows {ref : String}
    (hw : D (.reference ref) → Within D (r.resolveReference resolve ref)) :
    Follows D (r.resolveReference resolve ref) (r.resolveReference resolve ref) := by
  intro a b h type t hrun
  cases ha : a.references.lookup ref with
  | some found =>
    rw [resolveReference_cached ha] at hrun
    cases hrun
    obtain ⟨type', hb⟩ := h.known (o := .reference ref) ⟨_, ha⟩
    exact ⟨type', b, resolveReference_cached hb, h⟩
  | none =>
    cases hb : b.references.lookup ref with
    | some type' =>
      have hd := (h.rest (o := .reference ref) ⟨type', hb⟩).resolve_right fun ⟨_, hknown⟩ => by
        rw [ha] at hknown
        cases hknown
      have ht := h.within (hw hd) (resolveReference_grows hg ref a)
      rw [hrun] at ht
      exact ⟨type', b, resolveReference_cached hb, ht⟩
    | none =>
      rcases ht : r.target ref with fault | ⟨schema, _ | _⟩
      · rw [resolveReference_of_error ha ht] at hrun
        cases hrun
      · have hp := (Document.part_hereditary r.doc).target rfl ht
        by_cases hr : ref ∈ a.resolving
        · rw [resolveReference_circular ha ht hr] at hrun
          cases hrun
        rw [resolveReference_alias ha ht hr] at hrun
        rw [resolveReference_alias hb ht fun hmem => hr (h.resolving hmem)]
        refine Follows.bind ?_ (fun type type' => (Follows.remember ref type type').bind fun _ _ =>
          .pure _ _) h hrun
        exact (hf _ _ _ hp).whileResolving (hg _ _) (hg _ _) ref
      · have hp := (Document.part_hereditary r.doc).target rfl ht
        rw [resolveReference_named ha ht] at hrun
        rw [resolveReference_named hb ht]
        exact (Follows.reserveReference ref).bind (fun name name' =>
          (declareType_follows hf hp name name').bind fun _ _ => .pure _ _) h hrun

/-- An inline schema is followed: one that only the session behind has to declare is in the set. -/
theorem resolveInline_follows (hp : r.doc.Part schema) {hint : String} (hint' : String)
    (hw : D (.inline schema.address) → Within D (r.resolveInline resolve schema hint)) :
    Follows D (r.resolveInline resolve schema hint) (r.resolveInline resolve schema hint') := by
  intro a b h type t hrun
  cases ha : a.inlines.lookup schema.address with
  | some found =>
    rw [resolveInline_cached ha] at hrun
    cases hrun
    obtain ⟨name, hb⟩ := h.known (o := .inline schema.address) ⟨_, ha⟩
    exact ⟨.declared name, b, resolveInline_cached hb, h⟩
  | none =>
    cases hb : b.inlines.lookup schema.address with
    | some name =>
      have hd := (h.rest (o := .inline schema.address) ⟨name, hb⟩).resolve_right
        fun ⟨_, hknown⟩ => by
        rw [ha] at hknown
        cases hknown
      have ht := h.within (hw hd) (resolveInline_grows hg schema hint a)
      rw [hrun] at ht
      exact ⟨.declared name, b, resolveInline_cached hb, ht⟩
    | none =>
      rw [resolveInline_new ha] at hrun
      rw [resolveInline_new hb]
      exact (Follows.reserveInline schema _ _).bind (fun name name' =>
        (declareType_follows hf hp name name').bind fun _ _ => .pure _ _) h hrun

/-- One step of resolution follows another one with another hint. -/
theorem resolveStep_follows (hp : r.doc.Part schema) (hint hint' : String)
    (hw : r.Covered D schema → Within D (r.resolveStep resolve schema hint)) :
    Follows D (r.resolveStep resolve schema hint) (r.resolveStep resolve schema hint') := by
  rw [resolveStep_eq] at hw
  rw [resolveStep_eq, resolveStep_eq]
  refine .lift_bind form_agrees fun f hform => ?_
  rw [hform] at hw
  have hparts := (Document.part_hereditary r.doc).form rfl hp hform
  cases f with
  | absent => exact .pure _ _
  | reference ref => exact resolveReference_follows hf hg fun hd => hw (.of_origin hform rfl rfl hd)
  | wrapper inner => exact hf inner hint hint' (hparts _ (List.mem_singleton.mpr rfl))
  | inline => exact resolveInline_follows hf hg hp hint' fun hd => hw (.of_origin hform rfl rfl hd)
  | list items =>
    exact .bind (hf items _ _ (hparts _ (List.mem_singleton.mpr rfl))) fun type type' => .pure _ _
  | map values =>
    exact .bind (hf values _ _ (hparts _ (List.mem_singleton.mpr rfl))) fun type type' => .pure _ _
  | primitive name => exact .pure _ _

end Step

/-- A resolution follows another one of the same schema that lags behind by a closed set. -/
theorem resolveWithin_follows (hdoc : r.doc.Addressed) (hclosed : ∀ o, D o → r.Complete D o)
    (fuel : Nat) (hp : r.doc.Part schema) (hint hint' : String) :
    Follows D (r.resolveWithin fuel schema hint) (r.resolveWithin fuel schema hint') := by
  induction fuel generalizing schema hint hint' with
  | zero =>
    intro a b h type t hrun
    cases hrun
  | succ fuel ih =>
    refine resolveStep_follows (fun n hint hint' hp => ih hp hint hint')
      (resolveWithin_grows fuel) hp hint hint' fun hc => ?_
    exact resolveWithin_within hdoc hclosed (fuel + 1) hp hc hint

end Resolver

end ServiceContract
