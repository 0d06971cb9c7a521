import ServiceContract.Document.Yaml.Content
import ServiceContract.Proofs.Document.Entry
import ServiceContract.Proofs.Session.Run

/-!
# Keys of YAML mappings

A map is filled by assignments to its keys, so the keys of all maps that are made are different from
each other.

## Main definitions

* `Yaml.Contents.Keyed`: the keys of each map are different from each other.

## Main results

* `Yaml.keyed_of_readContents`: what the vertices of a graph stand for.
-/

namespace ServiceContract

/-- What every step of a fold keeps holds after it, if no step fails. -/
theorem of_foldlM_eq_ok {ε α β : Type} {P : β → Prop} {f : β → α → Except ε β}
    {xs : List α} {b c : β} (hf : ∀ b x c, P b → f b x = .ok c → P c) (hb : P b)
    (h : xs.foldlM f b = .ok c) : P c := by
  induction xs generalizing b with
  | nil =>
    cases h
    exact hb
  | cons x xs ih =>
    rw [List.foldlM_cons] at h
    obtain ⟨d, hd, h⟩ := except_bind_eq_ok.mp h
    exact ih (hf b x d hb hd) h

namespace Yaml

namespace Contents

variable {c d : Contents} {v u : Nat} {content : Content}

/-- The keys of each map that is made are different from each other. -/
def Keyed (c : Contents) : Prop :=
  ∀ v es, c.get? v = some (.map es) → (es.map Prod.fst).Nodup

theorem get?_set {found : Content} (h : (c.set v content).get? u = some found) :
    found = content ∨ c.get? u = some found := by
  rw [get?, set, Array.getElem?_setIfInBounds] at h
  split_ifs at h
  · exact .inl (Option.some.inj h).symm
  · cases h
  · exact .inr h

theorem Keyed.set (hc : c.Keyed) (h : ∀ es, content = .map es → (es.map Prod.fst).Nodup) :
    (c.set v content).Keyed := by
  intro u es hu
  rcases get?_set hu with hfound | hfound
  · exact h es hfound.symm
  · exact hc u es hfound

theorem Keyed.make (hc : c.Keyed) (h : c.make v = .ok d) : d.Keyed := by
  unfold Contents.make at h
  split_ifs at h
  · cases h
    exact hc
  · split at h
    · cases h
      have hmade : (c.set v (.list [])).Keyed := hc.set fun es hes => by cases hes
      exact hmade
    · cases h
      have hmade : (c.set v (.map [])).Keyed := hc.set fun es hes => by
        cases hes
        exact List.nodup_nil
      exact hmade
    · cases h
    · cases h
    · cases h
    · obtain ⟨s, -, h⟩ := except_bind_eq_ok.mp h
      cases h
      exact hc.set fun es hes => by cases hes

theorem Keyed.makeEntries {entries es : List (Scalar × Nat)} {parts : List (Nat × Nat)}
    (hc : c.Keyed) (he : (entries.map Prod.fst).Nodup)
    (h : Contents.makeEntries entries parts c = .ok (es, d)) :
    (es.map Prod.fst).Nodup ∧ d.Keyed := by
  induction parts generalizing entries c with
  | nil =>
    cases h
    exact ⟨he, hc⟩
  | cons part parts ih =>
    obtain ⟨c₁, hc₁, h⟩ := except_bind_eq_ok.mp h
    split at h
    · obtain ⟨c₂, hc₂, h⟩ := except_bind_eq_ok.mp h
      exact ih ((hc.make hc₁).make hc₂) (nodup_keys_insertEntry he) h
    · cases h

theorem Keyed.fill (hc : c.Keyed) (h : c.fill v = .ok d) : d.Keyed := by
  unfold Contents.fill at h
  split at h
  · obtain ⟨c₁, hc₁, h⟩ := except_bind_eq_ok.mp h
    cases h
    have hmade := of_foldlM_eq_ok (P := Keyed) (fun b x c hb hx => hb.make hx) hc hc₁
    exact hmade.set fun es hes => by cases hes
  · obtain ⟨graph, -, h⟩ := except_bind_eq_ok.mp h
    obtain ⟨⟨entries, c₁⟩, hc₁, h⟩ := except_bind_eq_ok.mp h
    cases h
    have hgraph : Keyed { c with graph } := hc
    have hnone : (([] : List (Scalar × Nat)).map Prod.fst).Nodup := List.nodup_nil
    obtain ⟨hentries, hmade⟩ := hgraph.makeEntries hnone hc₁
    refine hmade.set fun es hes => ?_
    cases hes
    exact hentries
  · cases h

theorem Keyed.fillAll {fuel : Nat} (hc : c.Keyed) (h : Contents.fillAll fuel c = .ok d) :
    d.Keyed := by
  induction fuel generalizing c with
  | zero =>
    cases h
    exact hc
  | succ fuel ih =>
    rw [Contents.fillAll] at h
    split_ifs at h
    · cases h
      exact hc
    · obtain ⟨c₁, hc₁, h⟩ := except_bind_eq_ok.mp h
      have hwaiting : Keyed { c with waiting := [] } := hc
      exact ih (of_foldlM_eq_ok (P := Keyed) (fun b x c hb hx => hb.fill hx) hwaiting hc₁) h

end Contents

/-- What the vertices of a graph stand for: the keys of each map are different from each other. -/
theorem keyed_of_readContents {g : Graph} {root : Nat} {c : Contents}
    (h : readContents g root = .ok c) : c.Keyed := by
  obtain ⟨c₁, hc₁, h⟩ := except_bind_eq_ok.mp h
  have hstart :
      Contents.Keyed { graph := g, made := Array.replicate g.size none, waiting := [] } := by
    intro v es hv
    rw [Contents.get?, Array.getElem?_replicate] at hv
    split_ifs at hv <;> cases hv
  exact (hstart.make hc₁).fillAll h

end Yaml

end ServiceContract
