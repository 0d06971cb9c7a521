import ServiceContract.Proofs.Schema.Acyclic
import ServiceContract.Proofs.Schema.Cover
import ServiceContract.Proofs.Schema.InlineName
import ServiceContract.Proofs.Schema.Record
import ServiceContract.Proofs.Schema.Termination

/-!
# The schemas that others stand for

A wrapper has the type of the schema inside it, and a reference that of the schema that it leads to.
Going on like that, a schema *stands for* one that is neither a wrapper nor a reference. If a schema
resolves to a declared type, then the type is the one that is declared for the schema that it stands
for: by way of however many wrappers and aliases, and also when the type has been found before.

## Main definitions

* `Node.Wraps`, `Node.IsProper`.
* `Document.Delegates`, `Document.StandsFor`: the schema that has the type of another one.
* `Resolver.Stands`: the schema that stands for one that is declared under a name.
* `Resolver.Standing`: references have the names of what they stand for.

## Main results

* `Document.StandsFor.unique`: a schema stands for one schema only.
* `Resolver.Later.standing`: references in later sessions.
* `Resolver.Standing.stands`: schemas that resolve to declared types.
-/

namespace ServiceContract

open Build Relation

/-! ### Wrappers and references -/

namespace Node

/-- The schema is a wrapper around the other one. -/
def Wraps (n m : Node) : Prop :=
  ∃ label, n.stripLayer label = .ok (some m)

/-- The schema is neither a reference nor a wrapper. -/
def IsProper (n : Node) : Prop :=
  n.has "$ref" = .ok false ∧ ∃ label, n.stripLayer label = .ok none

variable {n m : Node}

/-- A wrapper is no reference. -/
theorem Wraps.ref (h : n.Wraps m) : n.has "$ref" = .ok false := by
  obtain ⟨label, h⟩ := h
  obtain ⟨isReference, href, h⟩ := except_bind_eq_ok.mp h
  cases isReference with
  | false => exact href
  | true => cases h

theorem IsProper.not_wraps (h : n.IsProper) : ¬ n.Wraps m := by
  obtain ⟨-, label, hnone⟩ := h
  rintro ⟨label', hsome⟩
  cases (stripLayer_agrees _ hnone).symm.trans hsome

end Node

namespace Document

variable (doc : Document)

/-- The schema has the type of the other one, as a wrapper around it or a reference to it. -/
def Delegates (n m : Node) : Prop :=
  n.Wraps m ∨ doc.Refers n m

/-- Wrappers and references lead from the schema to the other one, which is neither. -/
def StandsFor (n target : Node) : Prop :=
  ReflTransGen doc.Delegates n target ∧ target.IsProper

variable {doc} {n m target target' : Node}

theorem Delegates.unique {m' : Node} (h : doc.Delegates n m) (h' : doc.Delegates n m') :
    m = m' := by
  rcases h with h | ⟨value, ref, href, hget, htext, hresolve⟩
  · rcases h' with ⟨label', h'⟩ | ⟨_, _, href', -⟩
    · obtain ⟨label, h⟩ := h
      cases (Node.stripLayer_agrees _ h).symm.trans h'
      rfl
    · cases h.ref.symm.trans href'
  · rcases h' with h' | ⟨value', ref', -, hget', htext', hresolve'⟩
    · cases h'.ref.symm.trans href
    · cases hget.symm.trans hget'
      cases htext.symm.trans htext'
      exact Except.ok.inj (hresolve.symm.trans hresolve')

theorem not_delegates_of_isProper (h : n.IsProper) : ¬ doc.Delegates n m := by
  rintro (hwraps | ⟨_, _, href, -⟩)
  · exact h.not_wraps hwraps
  · cases h.1.symm.trans href

/-- From a schema on the way the rest of the way leads on. -/
theorem StandsFor.of_delegates (h : doc.StandsFor n target) (hm : ReflTransGen doc.Delegates n m) :
    doc.StandsFor m target := by
  refine ⟨?_, h.2⟩
  rcases ReflTransGen.total_of_right_unique (fun _ _ _ h h' => h.unique h') h.1 hm with hback | hon
  · rcases ReflTransGen.cases_head hback with rfl | ⟨_, hfirst, -⟩
    · exact .refl
    · exact absurd hfirst (not_delegates_of_isProper h.2)
  · exact hon

/-- A schema that is neither a wrapper nor a reference stands for itself alone. -/
theorem StandsFor.eq_of_isProper (h : doc.StandsFor n target) (hn : n.IsProper) : n = target := by
  rcases ReflTransGen.cases_head h.1 with rfl | ⟨_, hfirst, -⟩
  · rfl
  · exact absurd hfirst (not_delegates_of_isProper hn)

/-- A schema stands for one schema only. -/
theorem StandsFor.unique (h : doc.StandsFor n target) (h' : doc.StandsFor n target') :
    target = target' :=
  (h'.of_delegates h.1).eq_of_isProper h.2

theorem StandsFor.part (h : doc.StandsFor n target) (hn : doc.Part n) : doc.Part target := by
  have hparts := doc.part_hereditary
  obtain ⟨hway, -⟩ := h
  induction hway with
  | refl => exact hn
  | tail _ hlast ih =>
    rcases hlast with ⟨_, hwraps⟩ | hrefers
    · exact hparts.stripLayer ih hwraps
    · exact hrefers.part

/-- Taking wrappers away leads on. -/
theorem delegates_of_unwrap {label : String} (h : doc.unwrap n label = .ok m) :
    ReflTransGen doc.Delegates n m := by
  have hwithin {fuel : Nat} {n : Node} (h : n.unwrapWithin label fuel = .ok m) :
      ReflTransGen doc.Delegates n m := by
    induction fuel generalizing n with
    | zero => cases h
    | succ fuel ih =>
      obtain ⟨layer, hlayer, h⟩ := except_bind_eq_ok.mp h
      cases layer with
      | none =>
        cases h
        exact .refl
      | some inner => exact .head (.inl ⟨label, hlayer⟩) (ih h)
  exact hwithin h

end Document

namespace Resolver

variable {r : Resolver} {s t : Session} {o : Origin} {schema target n m : Node}
  {ref name hint : String} {declares : Bool}

/-! ### What references lead to -/

/-- A reference leads to its target. -/
theorem delegates_of_target (ht : r.target ref = .ok (schema, declares)) :
    ReflTransGen r.doc.Delegates (.ofReference ref) schema := by
  obtain ⟨node, hnode, ht⟩ := except_bind_eq_ok.mp ht
  obtain ⟨inner, hinner, ht⟩ := except_bind_eq_ok.mp ht
  obtain ⟨declares, -, ht⟩ := except_bind_eq_ok.mp ht
  cases ht
  exact .head (.inr ⟨_, ref, rfl, rfl, rfl, hnode⟩) (Document.delegates_of_unwrap hinner)

/-- The schemas of references are no wrappers and no references. -/
theorem Behind.isProper (h : r.Behind o schema) : schema.IsProper := by
  cases h with
  | reference ht =>
    exact ⟨Node.has_ref_of_declaresType (declaresType_of_target ht), "", stripLayer_of_target ht ""⟩
  | inline hform =>
    cases formReason hform with
    | inline href hlayer => exact ⟨href, _, hlayer⟩

/-- In a document whose parts are told by their addresses there is one schema behind an origin. -/
theorem Behind.unique (hdoc : r.doc.Addressed) (h : r.Behind o n) (h' : r.Behind o m)
    (hn : r.doc.Part n) (hm : r.doc.Part m) : n = m := by
  cases h with
  | reference ht =>
    cases h' with
    | reference ht' =>
      cases ht.symm.trans ht'
      rfl
  | inline hform =>
    generalize ho : Origin.inline n.address = o at h'
    cases h' with
    | reference => cases ho
    | inline =>
      have haddress := Origin.inline.inj ho
      exact hdoc.unique hn hm haddress fun hnowhere =>
        form_ne_inline (hdoc.nowhere hn hnowhere) _ hform

/-! ### Names -/

variable (r) in
/-- The schema stands for one that has the name. -/
def Stands (s : Session) (schema : Node) (name : String) : Prop :=
  ∃ o target, r.doc.StandsFor schema target ∧ r.Behind o target ∧ r.Named s o name

theorem Stands.of_extends (h : r.Stands s schema name) (ht : s.Extends t) :
    r.Stands t schema name := by
  obtain ⟨o, target, hstands, hbehind, hnamed⟩ := h
  exact ⟨o, target, hstands, hbehind, hnamed.of_extends ht⟩

/-- What leads to a schema stands for the same. -/
theorem Stands.of_delegates (h : r.Stands s m name) (hm : ReflTransGen r.doc.Delegates n m) :
    r.Stands s n name := by
  obtain ⟨o, target, ⟨hway, hproper⟩, hrest⟩ := h
  exact ⟨o, target, ⟨hm.trans hway, hproper⟩, hrest⟩

/-- Two schemas that are the same reference stand for the same. -/
theorem Stands.of_ofReference {label : String} (h : r.Stands s (.ofReference ref) name)
    (hform : r.form n label = .ok (.reference ref)) : r.Stands s n name := by
  obtain ⟨o, target, ⟨hway, hproper⟩, hrest⟩ := h
  refine ⟨o, target, ⟨?_, hproper⟩, hrest⟩
  rcases ReflTransGen.cases_head hway with heq | ⟨m, hfirst, hway⟩
  · cases (heq ▸ hproper).1
  · refine .head ?_ hway
    rcases hfirst with hwraps | ⟨_, _, -, hget', htext', hresolve⟩
    · cases hwraps.ref
    · cases hget'
      cases htext'
      cases formReason hform with
      | reference href hget htext => exact .inr ⟨_, ref, href, hget, htext, hresolve⟩

variable (r) in
/-- The declared types that references have got are those of the schemas that they stand for. -/
def Standing (s : Session) : Prop :=
  ∀ ref name, s.references.lookup ref = some (.declared name) → r.Stands s (.ofReference ref) name

theorem Standing.of_extends (h : r.Standing s) (ht : s.Extends t)
    (href : t.references = s.references) :
    r.Standing t := by
  intro ref name hname
  exact (h ref name (href ▸ hname)).of_extends ht

/-- One more reference gets the type of what it stands for. -/
theorem Standing.add {type : TypeExpr} (h : r.Standing s) (ht : s.Extends t)
    (href : t.references = (ref, type) :: s.references)
    (hnew : ∀ name, type = .declared name → r.Stands t (.ofReference ref) name) : r.Standing t := by
  intro ref' name hname
  rw [href, lookup_cons_ite] at hname
  split_ifs at hname with hsame
  · subst hsame
    exact hnew name (Option.some.inj hname)
  · exact (h ref' name hname).of_extends ht

/-- A schema that resolves to a declared type stands for the one with the name of the type. -/
theorem Standing.stands {fuel : Nat} (ht : r.Standing t)
    (h : r.resolveWithin fuel schema hint s = (.ok (.declared name), t)) :
    r.Stands t schema name := by
  induction fuel generalizing schema hint s with
  | zero => cases h
  | succ fuel ih =>
    rw [resolveWithin, resolveStep_eq, lift_bind_eq_ok] at h
    obtain ⟨form, hform, h⟩ := h
    cases form with
    | absent => cases h
    | reference ref =>
      exact (ht ref name (lookup_of_resolveReference (resolveWithin_grows fuel) h)).of_ofReference
        hform
    | wrapper inner =>
      cases formReason hform with
      | wrapper hlayer hunwrap =>
        exact (ih h).of_delegates (.head (.inl ⟨_, hlayer⟩) (Document.delegates_of_unwrap hunwrap))
    | inline =>
      obtain ⟨name', heq, hname⟩ := lookup_of_resolveInline (resolveWithin_grows fuel) h
      cases heq
      exact ⟨.inline schema.address, schema, ⟨.refl, (Behind.inline hform).isProper⟩,
        .inline hform, hname⟩
    | list items =>
      obtain ⟨type, u, -, h⟩ := bind_eq_ok.mp h
      cases h
    | map values =>
      obtain ⟨type, u, -, h⟩ := bind_eq_ok.mp h
      cases h
    | primitive name => cases h

variable (r) in
/-- The session grows, and references keep the names of what they stand for. -/
def GrowsStanding (s t : Session) : Prop :=
  r.Grows s t ∧ (r.Standing s → r.Standing t)

instance : IsPreorder Session r.GrowsStanding where
  refl s := ⟨refl_of r.Grows s, id⟩
  trans _ _ _ h h' := ⟨trans_of r.Grows h.1 h'.1, h'.2 ∘ h.2⟩

theorem Grows.standing (h : r.Grows s t) (href : t.references = s.references) :
    r.GrowsStanding s t :=
  ⟨h, fun hs => hs.of_extends h.extends href⟩

theorem note_standing (e : Event) :
    Moves r.GrowsStanding (note e) := fun s => (note_grows e s).standing rfl

theorem addMethod_standing (m : Method) : Moves r.GrowsStanding (addMethod m) := fun s =>
  (addMethod_grows m s).standing rfl

section Step

variable {resolve : Node → String → Build TypeExpr} {fuel : Nat}
  (hf : ∀ n hint, Moves r.GrowsStanding (resolve n hint))
  (hok : ∀ {n hint s t type}, resolve n hint s = (.ok type, t) → r.Settled fuel n type t)
include hf hok

/-- References keep the names of what they stand for along one step of resolution if they do along
the resolutions inside it. -/
theorem resolveStep_standing (schema : Node) (hint : String) :
    Moves r.GrowsStanding (r.resolveStep resolve schema hint) := by
  have hgrows (n : Node) (hint : String) :
      Moves r.Grows (resolve n hint) := fun s => (hf n hint s).1
  have hdeclare (n : Node) (name : String) : Moves r.GrowsStanding (r.declareType resolve n name) :=
    declareType_moves hf (fun d s => (declare_grows d s).standing rfl) n name
  refine resolveStep_moves hf (resolveReference_moves (fun {ref n s} hs ht hr => ⟨?_, ?_⟩)
    fun {ref n s} hs ht {name t} hname => ?_)
    (resolveInline_moves fun {n hint s} hs {name t} hname => ?_) schema hint
  · refine ⟨whileResolving_grows hgrows ref n _, fun hstanding => ?_⟩
    have hinside :=
      (hf n (Naming.pascal (referenceName ref)) { s with resolving := ref :: s.resolving }).2
    exact (hinside (hstanding.of_extends ⟨id, id⟩ rfl)).of_extends ⟨id, id⟩ rfl
  · -- The target of the alias has the type already, so that it stands for the schema with the name.
    intro type t hres
    have hremember := remember_grows hgrows hs ht hr hres type
    refine ⟨hremember, fun hstanding => hstanding.add hremember.extends rfl fun name hname => ?_⟩
    subst hname
    rw [whileResolving_apply] at hres
    obtain ⟨hresult, hend⟩ := Prod.mk.inj hres
    have hsettled : r.Settled fuel n (.declared name) t :=
      (hok (Prod.ext hresult rfl)).of_extends (by rw [← hend]; exact ⟨id, id⟩)
    have hstands := hstanding.stands (hsettled (.refl t) (Nat.le_refl fuel) "")
    exact (hstands.of_extends hremember.extends).of_delegates (delegates_of_target ht)
  · have hreserve := reserveReference_grows hs ht hname
    obtain ⟨href, -⟩ := reserveReference_eq_ok hname
    refine trans_of r.GrowsStanding ⟨hreserve, fun hstanding => ?_⟩ (hdeclare n name t)
    refine hstanding.add hreserve.extends href fun name' heq => ?_
    cases heq
    refine ⟨.reference ref, n, ⟨delegates_of_target ht, (Behind.reference ht).isProper⟩,
      .reference ht, ⟨n, ht⟩, ?_⟩
    rw [href]
    exact List.lookup_cons_self
  · have hreserve := (reserveInline_grows (r := r) hs hname).standing (reserveInline_eq_ok hname).1
    exact trans_of r.GrowsStanding hreserve (hdeclare n name t)

end Step

theorem Partial.standing {fuel : Nat} {out : Except Fault TypeExpr × Session}
    (h : r.Partial fuel schema hint s out) : r.GrowsStanding s out.2 := by
  induction h with
  | off fuel schema hint s fault => exact refl_of r.GrowsStanding s
  | step fuel schema hint s resolve hp ih =>
    have hok {n hint s t type} (hres : resolve n hint s = (.ok type, t)) :
        r.Settled fuel n type t :=
      (hres ▸ hp n hint s).settled
    exact resolveStep_standing ih hok schema hint s

/-- In later sessions references have the names of what they stand for. -/
theorem Later.standing (h : r.Later s t) (hs : r.Standing s) : r.Standing t := by
  let R (s t : Session) : Prop := r.Standing s → r.Standing t
  have : IsPreorder Session R := { refl := fun _ => id, trans := fun _ _ _ h h' => h' ∘ h }
  exact h.moves (R := R) (fun _ hp => hp.standing.2) (fun e s => (note_standing e s).2)
    (fun m s => (addMethod_standing m s).2) (fun _ _ _ h => h.of_extends ⟨id, id⟩ rfl) hs

theorem start_standing (h : Session.start r.doc = .ok s) : r.Standing s := by
  intro ref name hname
  rw [Session.start_eq h] at hname
  cases hname

end Resolver

end ServiceContract
