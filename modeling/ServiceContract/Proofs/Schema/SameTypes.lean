import ServiceContract.Proofs.Schema.Form
import ServiceContract.Proofs.Session.Twin

/-!
# Types and the rest of a session

The resolution of a schema looks at the types and names that a session has given away. It does not
look at the methods that have been made, nor at the events. So it comes out the same in sessions
that differ only in these.

## Main definitions

* `Session.SameTypes`: sessions that differ at most in their methods and events.

## Main results

* `Resolver.resolve_sameTypes`: the resolution of a schema in such sessions.
-/

namespace ServiceContract

open Build

/-- The sessions differ at most in their methods and events. -/
def Session.SameTypes (s t : Session) : Prop :=
  ∃ methods events, t = { s with methods, events }

namespace Session.SameTypes

variable {s t : Session}

theorem refl (s : Session) : s.SameTypes s :=
  ⟨s.methods, s.events, rfl⟩

theorem declarations_eq (h : s.SameTypes t) : s.declarations = t.declarations := by
  obtain ⟨_, _, rfl⟩ := h
  rfl

end Session.SameTypes

namespace Build.Twins

open Session

variable {f g : Session → Session}

/-- A step that changes methods and events at most, on either side. -/
theorem modify_sameTypes (hf : ∀ s, SameTypes s (f s)) (hg : ∀ s, SameTypes s (g s)) :
    Twins SameTypes Eq (Build.modify f) (Build.modify g) := by
  refine modify fun s t hs => ?_
  obtain ⟨_, _, hs⟩ := hs
  obtain ⟨_, _, hf⟩ := hf s
  obtain ⟨methods, events, hg⟩ := hg t
  exact ⟨methods, events, by rw [hg, hs, hf]⟩

theorem note_sameTypes (e e' : Event) : Twins SameTypes Eq (Build.note e) (Build.note e') :=
  modify_sameTypes (fun _ => ⟨_, _, rfl⟩) fun _ => ⟨_, _, rfl⟩

theorem addMethod_sameTypes (m m' : Method) :
    Twins SameTypes Eq (Build.addMethod m) (Build.addMethod m') :=
  modify_sameTypes (fun _ => ⟨_, _, rfl⟩) fun _ => ⟨_, _, rfl⟩

/-- What is read is no method and no event. -/
theorem read_sameTypes {α : Type} {f : Session → α}
    (h : ∀ s methods events, f { s with methods, events } = f s) :
    Twins SameTypes Eq (Build.read f) (Build.read f) := by
  refine read fun s t hs => ?_
  obtain ⟨methods, events, rfl⟩ := hs
  exact (h s methods events).symm

/-- What is changed is no method and no event, and does not depend on them. -/
theorem change_sameTypes
    (h : ∀ s methods events, f { s with methods, events } = { f s with methods, events }) :
    Twins SameTypes Eq (Build.modify f) (Build.modify f) := by
  refine modify fun s t hs => ?_
  obtain ⟨methods, events, rfl⟩ := hs
  exact ⟨methods, events, h s methods events⟩

theorem claim_sameTypes (name : String) :
    Twins SameTypes Eq (Build.claim name) (Build.claim name) :=
  bind_eq (read_sameTypes fun _ _ _ => rfl) fun _ =>
    bind_eq (change_sameTypes fun _ _ _ => rfl) fun _ => pure rfl

theorem reserveReference_sameTypes (ref : String) :
    Twins SameTypes Eq (Build.reserveReference ref) (Build.reserveReference ref) := by
  refine bind_eq (read_sameTypes fun _ _ _ => rfl) fun components => ?_
  have hrecord (name : String) : Twins SameTypes Eq
      (Build.modify (fun s => { s with references := (ref, .declared name) :: s.references }) >>=
        fun _ => Pure.pure name)
      (Build.modify (fun s => { s with references := (ref, .declared name) :: s.references }) >>=
        fun _ => Pure.pure name) :=
    bind_eq (change_sameTypes fun _ _ _ => rfl) fun _ => pure rfl
  cases componentName? components ref with
  | some name => exact hrecord name
  | none => exact bind_eq (claim_sameTypes _) hrecord

theorem reserveInline_sameTypes (schema : Node) (hint : String) :
    Twins SameTypes Eq (Build.reserveInline schema hint) (Build.reserveInline schema hint) :=
  bind_eq (claim_sameTypes _) fun _ => bind_eq (change_sameTypes fun _ _ _ => rfl) fun _ => pure rfl

theorem declare_sameTypes (d : Declaration) :
    Twins SameTypes Eq (Build.declare d) (Build.declare d) :=
  bind_eq (note_sameTypes _ _) fun _ => change_sameTypes fun _ _ _ => rfl

theorem whileResolving_sameTypes {α : Type} {R : α → α → Prop} {m m' : Build α}
    (hm : Twins SameTypes R m m') (ref : String) :
    Twins SameTypes R (Build.whileResolving ref m) (Build.whileResolving ref m') :=
  hm.whileResolving ref (fun _ _ ⟨methods, events, h⟩ => ⟨methods, events, by rw [h]⟩)
    fun _ _ ⟨methods, events, h⟩ => ⟨methods, events, by rw [h]⟩

end Build.Twins

/-! ### Resolution -/

namespace Resolver

open Session

variable {r : Resolver}

section Step

variable {resolve : Node → String → Build TypeExpr}
  (hf : ∀ n hint, Twins SameTypes Eq (resolve n hint) (resolve n hint))
include hf

theorem resolveFields_sameTypes (owner : String) (required : List Scalar)
    (properties : List (Scalar × Node)) :
    Twins SameTypes Eq (resolveFields resolve owner required properties)
      (resolveFields resolve owner required properties) := by
  induction properties with
  | nil => exact .pure rfl
  | cons e properties ih =>
    refine .lift_bind_right fun wireName => .bind_eq (hf _ _) fun type => ?_
    refine .lift_bind_right fun value => .lift_bind_right fun description => ?_
    exact .bind_eq ih fun fields => .pure rfl

theorem declareType_sameTypes (schema : Node) (name : String) :
    Twins SameTypes Eq (r.declareType resolve schema name) (r.declareType resolve schema name) := by
  rw [declareType_eq]
  refine .lift_bind_right fun blueprint => ?_
  cases blueprint with
  | enumeration valueType members description => exact .declare_sameTypes _
  | record required properties description =>
    exact .bind_eq (resolveFields_sameTypes hf name required properties) fun fields =>
      .declare_sameTypes _

theorem resolveReference_sameTypes (ref : String) :
    Twins SameTypes Eq (r.resolveReference resolve ref) (r.resolveReference resolve ref) := by
  refine .bind_eq (.read_sameTypes fun _ _ _ => rfl) fun found => ?_
  cases found with
  | some type => exact .pure rfl
  | none =>
    refine .lift_bind_right fun node => .lift_bind_right fun target =>
      .lift_bind_right fun declares => ?_
    split_ifs
    · refine .bind_eq (.reserveReference_sameTypes ref) fun name => ?_
      exact .bind_eq (declareType_sameTypes hf target name) fun _ => .pure rfl
    · refine .bind_eq (.read_sameTypes fun _ _ _ => rfl) fun resolving => ?_
      split_ifs
      · exact .fail _
      · refine .bind_eq (.whileResolving_sameTypes (hf _ _) ref) fun type => ?_
        exact .bind_eq (.change_sameTypes fun _ _ _ => rfl) fun _ => .pure rfl

theorem resolveInline_sameTypes (schema : Node) (hint : String) :
    Twins SameTypes Eq (r.resolveInline resolve schema hint)
      (r.resolveInline resolve schema hint) := by
  refine .bind_eq (.read_sameTypes fun _ _ _ => rfl) fun found => ?_
  cases found with
  | some name => exact .pure rfl
  | none =>
    refine .bind_eq (.reserveInline_sameTypes schema _) fun name => ?_
    exact .bind_eq (declareType_sameTypes hf schema name) fun _ => .pure rfl

theorem resolveStep_sameTypes (schema : Node) (hint : String) :
    Twins SameTypes Eq (r.resolveStep resolve schema hint) (r.resolveStep resolve schema hint) := by
  rw [resolveStep_eq]
  refine .lift_bind_right fun form => ?_
  cases form with
  | absent => exact .pure rfl
  | reference ref => exact resolveReference_sameTypes hf ref
  | wrapper inner => exact hf inner hint
  | inline => exact resolveInline_sameTypes hf schema hint
  | list items => exact .bind_eq (hf _ _) fun type => .pure rfl
  | map values => exact .bind_eq (hf _ _) fun type => .pure rfl
  | primitive name => exact .pure rfl

end Step

/-- A schema resolves in the same way in sessions that differ only in their methods and events. -/
theorem resolve_sameTypes (schema : Node) (hint : String) :
    Twins SameTypes Eq (r.resolve schema hint) (r.resolve schema hint) := by
  have hwithin (fuel : Nat) (schema : Node) (hint : String) :
      Twins SameTypes Eq (r.resolveWithin fuel schema hint) (r.resolveWithin fuel schema hint) := by
    induction fuel generalizing schema hint with
    | zero => exact .fail _
    | succ fuel ih => exact resolveStep_sameTypes ih schema hint
  exact hwithin _ schema hint

end Resolver

end ServiceContract
