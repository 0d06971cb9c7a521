import ServiceContract.Proofs.Schema.Cover

/-!
# Resolutions that succeed

A resolution that succeeds completes what it meets: the references and inline schemas that the
session knows afterwards, and did not know before, have types that are made from what it knows.

## Main definitions

* `Resolver.Completes`: all that a step meets is complete after it.

## Main results

* `Resolver.resolveWithin_completes`: what a resolution that succeeds leaves behind.
-/

namespace ServiceContract

open Build

namespace Resolver

variable {r : Resolver} {schema : Node} {s t u : Session}

variable (r) in
/-- The session knows what it knew before, and all that it has met since is complete. -/
structure Completes (s t : Session) : Prop where
  kept : ∀ {o}, s.Knows o → t.Knows o
  complete : ∀ {o}, t.Knows o → s.Knows o ∨ r.Complete t.Knows o

namespace Completes

theorem refl (s : Session) : r.Completes s s := ⟨id, .inl⟩

theorem trans (h : r.Completes s t) (h' : r.Completes t u) : r.Completes s u where
  kept ho := h'.kept (h.kept ho)
  complete ho := by
    rcases h'.complete ho with ho | ho
    · exact (h.complete ho).imp_right fun hc => hc.mono fun _ => h'.kept
    · exact .inr ho

/-- What else the session at the beginning holds does not matter. -/
theorem congr (h : r.Completes u t) (hs : ∀ o, u.Knows o ↔ s.Knows o) : r.Completes s t where
  kept ho := h.kept ((hs _).mpr ho)
  complete ho := (h.complete ho).imp_left (hs _).mp

/-- Another origin may become known at the end, if it is complete. -/
theorem then_knows {o : Origin} (h : r.Completes s t) (hu : ∀ o', u.Knows o' ↔ o' = o ∨ t.Knows o')
    (hc : r.Complete u.Knows o) : r.Completes s u where
  kept ho := (hu _).mpr (.inr (h.kept ho))
  complete ho := by
    rcases (hu _).mp ho with rfl | ho
    · exact .inr hc
    · exact (h.complete ho).imp_right fun hc => hc.mono fun o ho => (hu o).mpr (.inr ho)

/-- Another origin that becomes known at the beginning has to be complete at the end. -/
theorem of_knows {o : Origin} (hs : ∀ o', t.Knows o' ↔ o' = o ∨ s.Knows o') (h : r.Completes t u)
    (hc : r.Complete u.Knows o) : r.Completes s u where
  kept ho := h.kept ((hs _).mpr (.inr ho))
  complete ho := by
    rcases h.complete ho with ho | ho
    · rcases (hs _).mp ho with rfl | ho
      · exact .inr hc
      · exact .inl ho
    · exact .inr ho

end Completes

section Completes

variable {resolve : Node → String → Build TypeExpr} {type : TypeExpr}
  (hf : ∀ ⦃n hint s type t⦄, r.doc.Part n → resolve n hint s = (.ok type, t) →
    r.Completes s t ∧ r.Covered t.Knows n)
include hf

theorem resolveFields_completes {owner : String} {required : List Scalar}
    {properties : List (Scalar × Node)} {fields : List Field}
    (hp : ∀ e ∈ properties, r.doc.Part e.2)
    (h : resolveFields resolve owner required properties s = (.ok fields, t)) :
    r.Completes s t ∧ ∀ e ∈ properties, r.CoveredProperty t.Knows e := by
  induction properties generalizing s fields with
  | nil =>
    obtain ⟨rfl, rfl⟩ := pure_eq_ok.mp h
    exact ⟨.refl _, fun e he => absurd he List.not_mem_nil⟩
  | cons e properties ih =>
    obtain ⟨wireName, hkey, h⟩ := lift_bind_eq_ok.mp h
    obtain ⟨type, s₁, htype, h⟩ := bind_eq_ok.mp h
    obtain ⟨value, hvalue, h⟩ := lift_bind_eq_ok.mp h
    obtain ⟨description, hdescription, h⟩ := lift_bind_eq_ok.mp h
    obtain ⟨fields, s₂, hfields, h⟩ := bind_eq_ok.mp h
    obtain ⟨rfl, rfl⟩ := pure_eq_ok.mp h
    have hpart := (Document.part_hereditary r.doc).orEmpty (hp e List.mem_cons_self)
    obtain ⟨hcompletes, hcovered⟩ := hf hpart htype
    obtain ⟨hrest, hproperties⟩ := ih (fun e he => hp e (List.mem_cons_of_mem _ he)) hfields
    refine ⟨hcompletes.trans hrest, fun e' he => ?_⟩
    rcases List.mem_cons.mp he with rfl | he
    · exact ⟨⟨_, hkey⟩, ⟨_, _, hvalue, hdescription⟩, hcovered.mono fun _ => hrest.kept⟩
    · exact hproperties e' he

theorem declareType_completes {name : String} (hp : r.doc.Part schema)
    (h : r.declareType resolve schema name s = (.ok (), t)) :
    r.Completes s t ∧ r.Declarable t.Knows schema := by
  rw [declareType_eq, lift_bind_eq_ok] at h
  obtain ⟨blueprint, hb, h⟩ := h
  have hdeclare (d : Declaration) (s : Session) : r.Completes s (declare d s).2 :=
    (Completes.refl _).congr fun _ => Session.knows_congr rfl rfl
  cases blueprint with
  | enumeration valueType members description =>
    have h' := hdeclare (.enumeration name valueType members description) s
    rw [show declare _ s = _ from h] at h'
    exact ⟨h', name, _, hb, fun e he => absurd he List.not_mem_nil⟩
  | record required properties description =>
    obtain ⟨fields, u, hfields, h⟩ := bind_eq_ok.mp h
    have h' := hdeclare (.record name fields description) u
    rw [h] at h'
    obtain ⟨hu, hproperties⟩ :=
      resolveFields_completes hf ((Document.part_hereditary r.doc).blueprint rfl hp hb) hfields
    exact ⟨hu.trans h', name, _, hb, fun e he => (hproperties e he).mono fun _ => h'.kept⟩

theorem resolveReference_completes {ref : String}
    (h : r.resolveReference resolve ref s = (.ok type, t)) :
    r.Completes s t ∧ t.Knows (.reference ref) := by
  cases referenceOutcome h with
  | cached hs => exact ⟨.refl s, _, hs⟩
  | @inherited schema _ u hs ht hr hrun =>
    obtain ⟨hu, hcovered⟩ := hf ((Document.part_hereditary r.doc).target rfl ht) hrun
    -- Recording the type makes the reference known, and changes nothing else that is known.
    have hknows (o : Origin) :
        Session.Knows
        { u with resolving := u.resolving.erase ref, references := (ref, type) :: u.references } o ↔
          o = .reference ref ∨ u.Knows o :=
      Session.knows_reference (s := u) rfl rfl
    have hkept (o : Origin) (ho : u.Knows o) := (hknows o).mpr (.inr ho)
    have hstart : r.Completes s u := hu.congr fun o => Session.knows_congr rfl rfl
    exact ⟨hstart.then_knows hknows ⟨schema, .inr ⟨ht, hcovered.mono hkept⟩⟩,
      (hknows _).mpr (.inl rfl)⟩
  | @named schema name _ _ hs ht hname hdeclare =>
    obtain ⟨href, hin, -⟩ := reserveReference_eq_ok hname
    have hknows (o : Origin) := Session.knows_reference (o := o) href hin
    obtain ⟨hcompletes, hdeclarable⟩ :=
      declareType_completes hf ((Document.part_hereditary r.doc).target rfl ht) hdeclare
    exact ⟨hcompletes.of_knows hknows ⟨schema, .inl ⟨ht, hdeclarable⟩⟩,
      hcompletes.kept ((hknows _).mpr (.inl rfl))⟩

theorem resolveInline_completes {hint : String} (hp : r.doc.Part schema)
    (h : r.resolveInline resolve schema hint s = (.ok type, t)) :
    r.Completes s t ∧ t.Knows (.inline schema.address) := by
  cases inlineOutcome h with
  | cached hs => exact ⟨.refl s, _, hs⟩
  | new hs hname hdeclare =>
    obtain ⟨href, hin, -⟩ := reserveInline_eq_ok hname
    have hknows (o : Origin) := Session.knows_inline (o := o) href hin
    obtain ⟨hcompletes, hdeclarable⟩ := declareType_completes hf hp hdeclare
    exact ⟨hcompletes.of_knows hknows ⟨schema, hp, rfl, hdeclarable⟩,
      hcompletes.kept ((hknows _).mpr (.inl rfl))⟩

theorem resolveStep_completes {hint : String} (hp : r.doc.Part schema)
    (h : r.resolveStep resolve schema hint s = (.ok type, t)) :
    r.Completes s t ∧ r.Covered t.Knows schema := by
  rw [resolveStep_eq, lift_bind_eq_ok] at h
  obtain ⟨form, hform, h⟩ := h
  have hparts := (Document.part_hereditary r.doc).form rfl hp hform
  have hinner {n : Node} {hint : String} {type : TypeExpr} (ho : form.origins schema = [])
      (hs : form.schemas = [n]) (hrun : resolve n hint s = (.ok type, t)) :
      r.Completes s t ∧ r.Covered t.Knows schema := by
    obtain ⟨hc, hcovered⟩ := hf (hparts n (hs ▸ List.mem_singleton.mpr rfl)) hrun
    exact ⟨hc, .of_schema hform ho hs hcovered⟩
  cases form with
  | absent =>
    obtain ⟨rfl, rfl⟩ := pure_eq_ok.mp h
    exact ⟨.refl _, .of_nothing hform rfl rfl⟩
  | reference ref =>
    obtain ⟨hc, hknows⟩ := resolveReference_completes hf h
    exact ⟨hc, .of_origin hform rfl rfl hknows⟩
  | wrapper inner => exact hinner rfl rfl h
  | inline =>
    obtain ⟨hc, hknows⟩ := resolveInline_completes hf hp h
    exact ⟨hc, .of_origin hform rfl rfl hknows⟩
  | list items =>
    obtain ⟨item, t', hitem, h⟩ := bind_eq_ok.mp h
    obtain ⟨rfl, rfl⟩ := pure_eq_ok.mp h
    exact hinner rfl rfl hitem
  | map values =>
    obtain ⟨value, t', hvalue, h⟩ := bind_eq_ok.mp h
    obtain ⟨rfl, rfl⟩ := pure_eq_ok.mp h
    exact hinner rfl rfl hvalue
  | primitive name =>
    obtain ⟨rfl, rfl⟩ := pure_eq_ok.mp h
    exact ⟨.refl _, .of_nothing hform rfl rfl⟩

end Completes

/-- After a resolution that succeeds, all that it has met is complete, and the schema is covered. -/
theorem resolveWithin_completes {fuel : Nat} {hint : String} {type : TypeExpr}
    (hp : r.doc.Part schema) (h : r.resolveWithin fuel schema hint s = (.ok type, t)) :
    r.Completes s t ∧ r.Covered t.Knows schema := by
  induction fuel generalizing schema hint s type t with
  | zero => cases h
  | succ fuel ih => exact resolveStep_completes (fun _ _ _ _ _ hp h => ih hp h) hp h

end Resolver

end ServiceContract
