import ServiceContract.Proofs.Document.Fuel
import ServiceContract.Proofs.Schema.Acyclic
import ServiceContract.Proofs.Schema.Size

/-!
# Bounds on unwrapping and flattening

What a schema without links unwraps to and what any schema flattens to does not depend on the bound,
as long as that is above the size of the document. A member of an `allOf` may refer to itself, and a
schema may be a member of a member of itself; both are endless under all bounds then.

## Main results

* `Node.unwrapWithin_eq`: wrappers.
* `Document.Counted.dereference_eq`: references from members.
* `Document.Counted.flattenWithin_eq`: the members of members.
-/

namespace ServiceContract

/-! ### Wrappers -/

namespace Node

variable {n : Node} {label : String}

theorem unwrapWithin_prolonged (fuel : Nat) (n : Node) :
    Prolonged (n.unwrapWithin label fuel) (n.unwrapWithin label (fuel + 1)) := by
  induction fuel generalizing n with
  | zero => exact .inl rfl
  | succ fuel ih =>
    rw [unwrapWithin, unwrapWithin]
    refine .bind_right fun layer => ?_
    cases layer with
    | none => exact .refl _
    | some inner => exact ih inner

/-- A schema has fewer wrappers than nodes. -/
theorem unwrapWithin_eq (ht : n.isTree = true) {fuel more : Nat} (hfuel : n.size < fuel)
    (hmore : fuel ≤ more) :
    n.unwrapWithin label more = n.unwrapWithin label fuel :=
  (Prolonged.of_le (fun fuel => unwrapWithin_prolonged fuel n) hmore).eq_of_ends
    (unwrapWithin_ends ht hfuel)

end Node

namespace Document

variable {doc : Document} {n m : Node} {label : String}

/-! ### References from members -/

theorem dereference_prolonged (fuel : Nat) (n : Node) :
    Prolonged (doc.dereference fuel n) (doc.dereference (fuel + 1) n) := by
  induction fuel generalizing n with
  | zero => exact .inl rfl
  | succ fuel ih =>
    rw [dereference, dereference]
    refine .bind_right fun isReference => ?_
    split_ifs
    · exact .bind_right fun value => .bind_right fun ref => .bind_right fun target => ih target
    · exact .refl _

theorem Refers.dereference_succ (h : doc.Refers n m) (fuel : Nat) :
    doc.dereference (fuel + 1) n = doc.dereference fuel m := by
  obtain ⟨value, ref, hhas, hvalue, href, hm⟩ := h
  rw [dereference, hhas, hvalue]
  simp only [bind, Except.bind, href, hm, if_true]

/-- References from a node are endless because those from the node are to which the first one
leads. -/
theorem refers_of_endless {fuel : Nat} (h : doc.dereference (fuel + 1) n = .error .endless) :
    ∃ m, doc.Refers n m := by
  have hP := readingFaults_ne_endless
  obtain ⟨isReference, hhas, h⟩ := FailsWith.bind_eq_error (hP.has n _) h
  cases isReference with
  | false => cases h
  | true =>
    obtain ⟨value, hvalue, h⟩ := FailsWith.bind_eq_error (hP.get n _) h
    obtain ⟨ref, href, h⟩ := FailsWith.bind_eq_error (hP.asText value) h
    obtain ⟨m, hm, -⟩ := FailsWith.bind_eq_error (hP.resolve doc ref) h
    exact ⟨m, value, ref, hhas, hvalue, href, hm⟩

/-- Where references from a member lead to does not depend on the bound. -/
theorem Counted.dereference_eq (h : doc.Counted) (hn : doc.Part n) {fuel more : Nat}
    (hfuel : doc.size + 2 ≤ fuel) (hmore : doc.size + 2 ≤ more) :
    doc.dereference fuel n = doc.dereference more n := by
  obtain ⟨l, hsize, hl⟩ := h
  refine eq_of_large (f := doc.dereference) (P := doc.Part) (l := l)
    dereference_prolonged (fun {fuel n} hn hend hlast => ?_) hn (by omega) (by omega)
  obtain ⟨m, hm⟩ := refers_of_endless hend
  rw [hm.dereference_succ] at hend hlast
  refine ⟨m, hm.part, ?_, hend, hlast⟩
  cases fuel with
  | zero => exact .inl rfl
  | succ fuel =>
    obtain ⟨_, _, _, hhas, hget, -⟩ := refers_of_endless hend
    exact .inr (mem_of_get hl hm.part hhas hget)

/-! ### Members of members -/

section Flatten

variable {flatten flatten' : Node → Except Fault Shape} {schema member : Node}
  (hf : ∀ n, Prolonged (flatten n) (flatten' n))

/-- A member is endless under the last bound because it is an `allOf` that is. -/
theorem memberShape_last (h : doc.memberShape flatten label schema member = .error .endless)
    (hlast : doc.memberShape flatten' label schema member ≠ .error .endless) :
    ∃ part, doc.dereference (doc.size + 2) member = .ok part ∧ part.has "allOf" = .ok true ∧
      flatten part = .error .endless ∧ flatten' part ≠ .error .endless := by
  have hP := readingFaults_ne_endless
  rw [memberShape] at h hlast
  cases hpart : doc.dereference (doc.size + 2) member with
  | error fault =>
    rw [hpart] at h hlast
    exact absurd h hlast
  | ok part =>
    rw [hpart] at h hlast
    obtain ⟨hasMembers, hhas, h⟩ := FailsWith.bind_eq_error (hP.has part _) h
    rw [except_ok_bind, hhas, except_ok_bind] at hlast
    split_ifs at h hlast with hmembers
    · rw [Bool.and_eq_true] at hmembers
      exact ⟨part, rfl, hmembers.1 ▸ hhas, h, hlast⟩
    · exact absurd h hlast

include hf

theorem memberShape_prolonged : Prolonged (doc.memberShape flatten label schema member)
    (doc.memberShape flatten' label schema member) := by
  refine .bind_right fun part => .bind_right fun hasMembers => ?_
  split_ifs
  · exact hf part
  · exact .refl _

theorem mergeMembers_prolonged (shape : Shape) (members : List Node) :
    Prolonged (doc.mergeMembers flatten label schema shape members)
      (doc.mergeMembers flatten' label schema shape members) := by
  induction members generalizing shape with
  | nil => exact .refl _
  | cons member members ih => exact .bind (memberShape_prolonged hf) fun part => ih _

/-- Members are endless under the last bound because the `allOf` of one of them is. -/
theorem mergeMembers_last {shape : Shape} {members : List Node}
    (h : doc.mergeMembers flatten label schema shape members = .error .endless)
    (hlast : doc.mergeMembers flatten' label schema shape members ≠ .error .endless) :
    ∃ member ∈ members, ∃ part, doc.dereference (doc.size + 2) member = .ok part ∧
      part.has "allOf" = .ok true ∧ flatten part = .error .endless ∧
      flatten' part ≠ .error .endless := by
  induction members generalizing shape with
  | nil => cases h
  | cons member members ih =>
    rw [mergeMembers] at h hlast
    have hmember : Prolonged (doc.memberShape flatten label schema member)
        (doc.memberShape flatten' label schema member) := memberShape_prolonged hf
    rcases hmember with hend | heq
    · refine ⟨member, List.mem_cons_self, memberShape_last hend fun hend' => hlast ?_⟩
      rw [hend']
      rfl
    · rw [heq] at hlast
      cases hpart : doc.memberShape flatten label schema member with
      | error fault =>
        rw [hpart] at h hlast
        exact absurd h hlast
      | ok part =>
        rw [hpart] at h hlast
        obtain ⟨m, hm, hpart⟩ := ih h hlast
        exact ⟨m, List.mem_cons_of_mem _ hm, hpart⟩

end Flatten

theorem flattenWithin_prolonged (fuel : Nat) (n : Node) :
    Prolonged (doc.flattenWithin label fuel n) (doc.flattenWithin label (fuel + 1) n) := by
  induction fuel generalizing n with
  | zero => exact .inl rfl
  | succ fuel ih =>
    rw [flattenWithin, flattenWithin]
    exact .bind_right fun value => .bind_right fun members => mergeMembers_prolonged ih _ _

/-- The flattening of a schema does not depend on the bound. -/
theorem Counted.flattenWithin_eq (h : doc.Counted) (hn : doc.Part n) {fuel more : Nat}
    (hfuel : doc.size + 2 ≤ fuel) (hmore : doc.size + 2 ≤ more) :
    doc.flattenWithin label fuel n = doc.flattenWithin label more n := by
  have hP := readingFaults_ne_endless
  obtain ⟨l, hsize, hl⟩ := h
  refine eq_of_large (f := doc.flattenWithin label) (P := doc.Part) (l := l)
    flattenWithin_prolonged (fun {fuel n} hn hend hlast => ?_) hn (by omega) (by omega)
  obtain ⟨value, hvalue, hend⟩ := FailsWith.bind_eq_error (hP.get n _) hend
  obtain ⟨members, hmembers, hend⟩ := FailsWith.bind_eq_error (hP.items value) hend
  rw [flattenWithin, hvalue, except_ok_bind, hmembers, except_ok_bind] at hlast
  obtain ⟨member, hmember, part, hpart, hhas, hend, hlast⟩ :=
    mergeMembers_last (flattenWithin_prolonged fuel) hend hlast
  have hmemberPart : doc.Part member := by
    rcases List.mem_append.mp hmember with hmem | hself
    · exact doc.part_hereditary.items (doc.part_hereditary.get hn hvalue) hmembers hmem
    · exact List.mem_singleton.mp hself ▸ hn
  have hpartPart := doc.part_hereditary.dereference hmemberPart hpart
  refine ⟨part, hpartPart, ?_, hend, hlast⟩
  cases fuel with
  | zero => exact .inl rfl
  | succ fuel =>
    obtain ⟨value, hvalue, -⟩ := FailsWith.bind_eq_error (hP.get part _) hend
    exact .inr (mem_of_get hl hpartPart hhas hvalue)

end Document

end ServiceContract
