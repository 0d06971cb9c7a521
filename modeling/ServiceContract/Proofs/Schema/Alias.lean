import ServiceContract.Proofs.Session.Growth

/-!
# Resolutions inside an alias

While an alias is in progress, resolution goes as it goes outside of the alias, unless it meets the
alias again, which is a fault. No step looks at the aliases in progress for any other reason, and
each step leaves them as they were.

## Main definitions

* `Session.inside`: a session with one more alias in progress.
* `Fault.metAgain`: the fault of an alias that is met while it is in progress.
* `Build.SameInside`: a step that does inside an alias what it does outside, unless it meets the
  alias.

## Main results

* `Resolver.resolveWithin_sameInside`: resolutions.
-/

namespace ServiceContract

open Build

/-- The session with one more alias in progress, which was begun before all others. -/
def Session.inside (s : Session) (ref : String) : Session :=
  { s with resolving := s.resolving ++ [ref] }

/-- An alias is met while it is in progress. -/
def Fault.metAgain (ref : String) : Fault :=
  .unsupported (referenceName ref) "alias refers to itself"

namespace Build

variable {α β : Type} {ref : String}

/-- Inside the alias the step does what it does outside, unless it meets the alias again. -/
def SameInside (ref : String) (m : Build α) : Prop :=
  ∀ s, m (s.inside ref) = ((m s).1, (m s).2.inside ref) ∨ (m (s.inside ref)).1 =
    .error (.metAgain ref)

namespace SameInside

/-! ### Steps that change a session -/

theorem pure (a : α) : SameInside ref (Pure.pure a) := fun _ => .inl rfl

theorem bind {m : Build α} {k : α → Build β} (hm : SameInside ref m)
    (hk : ∀ a, SameInside ref (k a)) :
    SameInside ref (m >>= k) := by
  intro s
  rw [bind_apply, bind_apply]
  rcases hm s with h | h
  · rw [h]
    rcases m s with ⟨fault | a, t⟩
    · exact .inl rfl
    · exact hk a t
  · rcases hrun : m (s.inside ref) with ⟨fault | a, t⟩
    · rw [hrun] at h
      cases h
      exact .inr rfl
    · rw [hrun] at h
      cases h

theorem lift_bind {x : Except Fault α} {k : α → Build β} (hk : ∀ a, SameInside ref (k a)) :
    SameInside ref ((liftM x : Build α) >>= k) := by
  cases x with
  | error fault => exact fun _ => .inl rfl
  | ok a => exact hk a

theorem declare (d : Declaration) : SameInside ref (Build.declare d) := fun _ => .inl rfl

theorem remember (ref' : String) (type : TypeExpr) : SameInside ref (Build.remember ref' type) :=
  fun _ => .inl rfl

theorem reserveInline (schema : Node) (hint : String) :
    SameInside ref (Build.reserveInline schema hint) :=
  fun _ => .inl rfl

theorem reserveReference (ref' : String) : SameInside ref (Build.reserveReference ref') := by
  intro s
  left
  cases h : componentName? s.components ref' with
  | some name =>
    rw [reserveReference_component h, reserveReference_component (s := s.inside ref) h]
    rfl
  | none =>
    rw [reserveReference_fresh h, reserveReference_fresh (s := s.inside ref) h]
    rfl

/-- Another alias gets in progress and is taken off again. -/
theorem whileResolving {r : Resolver} {m : Build α} (hm : SameInside ref m)
    (hgrows : Moves r.Grows m) (ref' : String) : SameInside ref (Build.whileResolving ref' m) := by
  intro s
  have hresolving := (hgrows { s with resolving := ref' :: s.resolving }).resolving
  rw [whileResolving_apply, whileResolving_apply]
  rcases hm { s with resolving := ref' :: s.resolving } with h | h
  · left
    change m { s.inside ref with resolving := ref' :: (s.inside ref).resolving } = _ at h
    rw [h]
    simp only [Session.inside, hresolving, List.cons_append, List.erase_cons_head]
  · exact .inr h

end SameInside

end Build

namespace Resolver

variable {r : Resolver} {ref : String}

/-! ### Resolution -/

section Step

variable {resolve : Node → String → Build TypeExpr} (hf : ∀ n hint, SameInside ref (resolve n hint))
include hf

theorem resolveFields_sameInside (owner : String) (required : List Scalar)
    (properties : List (Scalar × Node)) :
    SameInside ref (resolveFields resolve owner required properties) := by
  induction properties with
  | nil => exact .pure _
  | cons e properties ih =>
    refine .lift_bind fun wireName => .bind (hf _ _) fun type => ?_
    exact .lift_bind fun value => .lift_bind fun description => .bind ih fun fields => .pure _

theorem declareType_sameInside (schema : Node) (name : String) :
    SameInside ref (r.declareType resolve schema name) := by
  rw [declareType_eq]
  refine .lift_bind fun blueprint => ?_
  cases blueprint with
  | enumeration => exact .declare _
  | record => exact .bind (resolveFields_sameInside hf _ _ _) fun fields => .declare _

theorem resolveInline_sameInside (schema : Node) (hint : String) :
    SameInside ref (r.resolveInline resolve schema hint) := by
  intro s
  cases hs : s.inlines.lookup schema.address with
  | some name =>
    rw [resolveInline_cached hs, resolveInline_cached (s := s.inside ref) hs]
    exact .inl rfl
  | none =>
    rw [resolveInline_new hs, resolveInline_new (s := s.inside ref) hs]
    exact ((SameInside.reserveInline schema _).bind fun name =>
      (declareType_sameInside hf schema name).bind fun _ => .pure _) s

variable (hgrows : ∀ n hint, Moves r.Grows (resolve n hint))
include hgrows

/-- Only a reference looks at the aliases in progress: it must not be one of them. -/
theorem resolveReference_sameInside (ref' : String) :
    SameInside ref (r.resolveReference resolve ref') := by
  intro s
  cases hs : s.references.lookup ref' with
  | some type =>
    rw [resolveReference_cached hs, resolveReference_cached (s := s.inside ref) hs]
    exact .inl rfl
  | none =>
    have hs' : (s.inside ref).references.lookup ref' = none := hs
    rcases ht : r.target ref' with fault | ⟨schema, _ | _⟩
    · rw [resolveReference_of_error hs ht, resolveReference_of_error hs' ht]
      exact .inl rfl
    · by_cases hr : ref' ∈ s.resolving
      · rw [resolveReference_circular hs ht hr,
          resolveReference_circular hs' ht (List.mem_append_left _ hr)]
        exact .inl rfl
      by_cases heq : ref' = ref
      · subst heq
        rw [resolveReference_circular hs' ht (List.mem_append_right _ List.mem_cons_self)]
        exact .inr rfl
      have hr' : ref' ∉ (s.inside ref).resolving := fun hmem =>
        (List.mem_append.mp hmem).elim hr fun hmem => heq (List.mem_singleton.mp hmem)
      rw [resolveReference_alias hs ht hr, resolveReference_alias hs' ht hr']
      exact (((hf _ _).whileResolving (hgrows _ _) ref').bind fun type =>
        (SameInside.remember ref' type).bind fun _ => .pure _) s
    · rw [resolveReference_named hs ht, resolveReference_named hs' ht]
      exact ((SameInside.reserveReference ref').bind fun name =>
        (declareType_sameInside hf schema name).bind fun _ => .pure _) s

theorem resolveStep_sameInside (schema : Node) (hint : String) :
    SameInside ref (r.resolveStep resolve schema hint) := by
  rw [resolveStep_eq]
  refine .lift_bind fun form => ?_
  cases form with
  | absent => exact .pure _
  | reference ref' => exact resolveReference_sameInside hf hgrows ref'
  | wrapper inner => exact hf inner hint
  | inline => exact resolveInline_sameInside hf schema hint
  | list items => exact .bind (hf _ _) fun type => .pure _
  | map values => exact .bind (hf _ _) fun type => .pure _
  | primitive name => exact .pure _

end Step

/-- Inside an alias a schema is resolved as it is outside, unless the alias is met again. -/
theorem resolveWithin_sameInside (ref : String) (fuel : Nat) (schema : Node) (hint : String) :
    SameInside ref (r.resolveWithin fuel schema hint) := by
  induction fuel generalizing schema hint with
  | zero => exact fun _ => .inl rfl
  | succ fuel ih => exact resolveStep_sameInside ih (resolveWithin_grows fuel) schema hint

end Resolver

end ServiceContract
