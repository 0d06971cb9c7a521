import ServiceContract.Proofs.Document.Fault
import ServiceContract.Proofs.Session.Budget

/-!
# Bounds on reading

Chains of references, and whatever else may go round in a circle, are followed up to a bound. A
larger bound changes nothing but what is endless under the smaller one. In a document without links
a bound above the number of its nodes is large enough, also where there is a circle: what comes to
an end at all does so within such a bound.

## Main definitions

* `Prolonged`: results under two bounds.

## Main results

* `le_of_last`: the last bound under which something is endless.
* `eq_of_large`: results under large bounds are the same.
* `Document.IsTree.followFrom_eq`: chains of references.
-/

namespace ServiceContract

/-! ### Results under two bounds -/

/-- Unless the result `x` is endless, `y` is the same. -/
def Prolonged {α : Type} (x y : Except Fault α) : Prop :=
  x = .error .endless ∨ y = x

namespace Prolonged

variable {α β : Type} {x y : Except Fault α}

theorem refl (x : Except Fault α) : Prolonged x x := .inr rfl

theorem bind {k l : α → Except Fault β} (h : Prolonged x y) (hk : ∀ a, Prolonged (k a) (l a)) :
    Prolonged (x >>= k) (y >>= l) := by
  rcases h with rfl | rfl
  · exact .inl rfl
  · cases y with
    | error fault => exact .refl _
    | ok a => exact hk a

theorem bind_right {k l : α → Except Fault β} (hk : ∀ a, Prolonged (k a) (l a)) :
    Prolonged (x >>= k) (x >>= l) :=
  (refl x).bind hk

theorem eq_of_ends (h : Prolonged x y) (hx : FailsWith (· ≠ .endless) x) : y = x :=
  h.resolve_left fun hendless => hx hendless rfl

/-- What is endless under all bounds but the last one is endless under the first one. -/
theorem endless (h : Prolonged x y) (hy : y = .error .endless) : x = .error .endless := by
  rcases h with h | h
  · exact h
  · rw [← h, hy]

theorem of_le {f : Nat → Except Fault α} (hf : ∀ k, Prolonged (f k) (f (k + 1))) {k k' : Nat}
    (h : k ≤ k') : Prolonged (f k) (f k') := by
  induction k', h using Nat.le_induction with
  | base => exact .refl _
  | succ k' _ ih =>
    rcases ih with ih | ih
    · exact .inl ih
    · rcases hf k' with hend | hend
      · exact .inl (ih ▸ hend)
      · exact .inr (hend.trans ih)

end Prolonged

/-! ### Bounds that are large enough -/

section Large

variable {α β : Type} {l : List α} {k k' : Nat} {a : α}

/-- Let `E k a` say that something is endless for `a` under the bound `k`. If that is so because it
is endless under the bound before for one of finitely many things, then the last such bound is no
larger than their number: the things on the way have different last bounds. -/
theorem le_of_last {E : Nat → α → Prop} (hmono : ∀ {k a}, E (k + 1) a → E k a)
    (hstep : ∀ {k a}, E (k + 1) a → ¬ E (k + 2) a → ∃ b, (k = 0 ∨ b ∈ l) ∧ E k b ∧ ¬ E (k + 1) b)
    (h : E k a) (hlast : ¬ E (k + 1) a) : k ≤ l.length + 1 := by
  have hmet : ∃ met : List α, met.Nodup ∧ met ⊆ l ∧ k ≤ met.length + 1 ∧ ∀ b ∈ met, ¬ E k b := by
    induction k generalizing a with
    | zero =>
      exact ⟨[], .nil, List.nil_subset l, Nat.zero_le _, fun _ hb => absurd hb List.not_mem_nil⟩
    | succ k ih =>
      obtain ⟨b, hb, hend, hlast⟩ := hstep h hlast
      rcases hb with rfl | hb
      · exact ⟨[], .nil, List.nil_subset l, Nat.le_refl _, fun _ hb => absurd hb List.not_mem_nil⟩
      · obtain ⟨met, hnodup, hsub, hlength, hmet⟩ := ih hend hlast
        have hnew : b ∉ met := fun hmem => hmet b hmem hend
        refine ⟨b :: met, List.nodup_cons.mpr ⟨hnew, hnodup⟩,
          List.cons_subset.mpr ⟨hb, hsub⟩, ?_, ?_⟩
        · exact Nat.succ_le_succ hlength
        · exact List.forall_mem_cons.mpr ⟨hlast, fun c hc hend => hmet c hc (hmono hend)⟩
  obtain ⟨met, hnodup, hsub, hlength, -⟩ := hmet
  exact Nat.le_trans hlength (Nat.succ_le_succ (hnodup.subperm hsub).length_le)

/-- If the result for `a` is endless under a bound because the one for some `b` among finitely many
is endless under the bound before, the results under all bounds above their number are the same. -/
theorem eq_of_large {f : Nat → α → Except Fault β} {P : α → Prop}
    (hf : ∀ k a, Prolonged (f k a) (f (k + 1) a))
    (hstep : ∀ {k a}, P a → f (k + 1) a = .error .endless → f (k + 2) a ≠ .error .endless →
      ∃ b, P b ∧ (k = 0 ∨ b ∈ l) ∧ f k b = .error .endless ∧ f (k + 1) b ≠ .error .endless)
    (ha : P a) (hk : l.length + 2 ≤ k) (hk' : l.length + 2 ≤ k') : f k a = f k' a := by
  have hlast {k : Nat} (hk : l.length + 2 ≤ k) (hend : f k a = .error .endless) :
      f (k + 1) a = .error .endless := by
    by_contra hnot
    have hle := le_of_last (l := l) (E := fun k a => P a ∧ f k a = .error .endless)
      (fun h => ⟨h.1, (hf _ _).endless h.2⟩)
      (fun h hnot => by
        obtain ⟨b, hb, hmem, hend, hlast⟩ := hstep h.1 h.2 fun hend => hnot ⟨h.1, hend⟩
        exact ⟨b, hmem, ⟨hb, hend⟩, fun h => hlast h.2⟩)
      ⟨ha, hend⟩ fun h => hnot h.2
    omega
  have hbase {k : Nat} (hk : l.length + 2 ≤ k) : f k a = f (l.length + 2) a := by
    induction k, hk using Nat.le_induction with
    | base => rfl
    | succ k hk ih =>
      rcases hf k a with hend | heq
      · rw [hlast hk hend, ← ih, hend]
      · rw [heq, ih]
  rw [hbase hk, hbase hk']

end Large

/-! ### Chains of references -/

namespace Document

variable {doc : Document} {n : Node}

theorem followFrom_prolonged (fuel : Nat) (seen : List String) (n : Node) :
    Prolonged (doc.followFrom fuel seen n) (doc.followFrom (fuel + 1) seen n) := by
  induction fuel generalizing seen n with
  | zero => exact .inl rfl
  | succ fuel ih =>
    rw [followFrom, followFrom]
    refine .bind_right fun isReference => ?_
    split_ifs
    · refine .bind_right fun value => .bind_right fun ref => ?_
      split_ifs
      · exact .refl _
      · exact .bind_right fun target => ih _ target
    · exact .refl _

/-- A chain of references ends before the bound, since each step uses another text of the
document. -/
theorem IsTree.followFrom_ends (h : doc.IsTree) {fuel : Nat} {seen : List String}
    (hnodup : seen.Nodup) (hseen : ∀ ref ∈ seen, ref ∈ doc.texts) (hn : doc.Part n)
    (hfuel : doc.texts.card < fuel + seen.length) :
    FailsWith (· ≠ .endless) (doc.followFrom fuel seen n) := by
  have hP := readingFaults_ne_endless
  induction fuel generalizing seen n with
  | zero =>
    have hlength : seen.toFinset.card ≤ doc.texts.card :=
      Finset.card_le_card fun ref href => hseen ref (List.mem_toFinset.mp href)
    rw [List.toFinset_card_of_nodup hnodup] at hlength
    omega
  | succ fuel ih =>
    refine (hP.has n _).bind fun isReference hhas => .ite (fun htrue => ?_) fun _ => .ok _
    refine (hP.get n _).bind fun value hvalue => (hP.asText value).bind fun ref href => ?_
    refine .ite (fun _ => .ok _) fun hnew => (hP.resolve doc ref).bind fun target htarget => ?_
    rw [htrue] at hhas
    have hmem := mem_texts (h.mem_subnodes_of_get hn hhas hvalue).2 href
    have hnodup' : (ref :: seen).Nodup :=
      List.nodup_cons.mpr ⟨fun hmem => hnew (by simpa using hmem), hnodup⟩
    have hseen' : ∀ ref' ∈ ref :: seen, ref' ∈ doc.texts := List.forall_mem_cons.mpr ⟨hmem, hseen⟩
    refine ih hnodup' hseen' (doc.part_hereditary.resolve htarget) ?_
    rw [List.length_cons]
    omega

/-- The end of a chain of references does not depend on the bound. -/
theorem IsTree.followFrom_eq (h : doc.IsTree) (hn : doc.Part n) {fuel : Nat}
    (hfuel : doc.size + 2 ≤ fuel) :
    doc.followFrom fuel [] n = doc.follow n := by
  have hcard := h.card_texts_le
  have hends : FailsWith (· ≠ .endless) (doc.follow n) :=
    h.followFrom_ends .nil (fun _ hmem => absurd hmem List.not_mem_nil) hn
      (by rw [List.length_nil]; omega)
  exact (Prolonged.of_le (fun fuel => followFrom_prolonged fuel [] n) hfuel).eq_of_ends hends

end Document

end ServiceContract
