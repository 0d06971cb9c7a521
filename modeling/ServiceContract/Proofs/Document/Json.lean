import ServiceContract.Document.Json
import ServiceContract.Proofs.Document.Entry
import ServiceContract.Proofs.Document.WellFormed

/-!
# Values that are read from JSON

A value is read by putting its parts together: the items of a list, and the entries of an object one
after the other. So what holds of all scalars and is kept when parts are put together holds of all
that is read. A key that is repeated in an object takes the place of the earlier one, so the keys of
all objects that are read are different from each other; and they are texts.

## Main definitions

* `Json.Composed`: a property that is kept when a value is put together.
* `Value.TextKeyed`: values whose keys are texts.

## Main results

* `Json.of_read`: what is kept when values are put together holds of all that is read.
* `Json.isKeyed_of_read`, `Json.textKeyed_of_read`: the keys of objects.
-/

namespace ServiceContract

/-- The keys of each map in the value are texts. -/
inductive Value.TextKeyed : Value → Prop
  | scalar (s : Scalar) : TextKeyed (.scalar s)
  | list {vs : List Value} (h : ∀ v ∈ vs, TextKeyed v) : TextKeyed (.list vs)
  | map {es : List (Scalar × Value)} (hk : ∀ e ∈ es, ∃ key, e.1 = .text key)
    (h : ∀ e ∈ es, TextKeyed e.2) : TextKeyed (.map es)

namespace Json

/-- The property `P` holds of scalars and is kept when a list or an object is put together as it is
read. -/
structure Composed (P : Value → Prop) : Prop where
  scalar : ∀ s, P (.scalar s)
  list : ∀ {vs}, (∀ v ∈ vs, P v) → P (.list vs)
  empty : P (.map [])
  entry : ∀ {es key v}, P (.map es) → P v → P (.map (insertEntry (.text key) v es))

/-- The values that are read with a given fuel have the property `P`. -/
structure Reads (P : Value → Prop) (fuel : Nat) : Prop where
  value : ∀ {s v rest}, readValue fuel s = .ok (v, rest) → P v
  items : ∀ {s vs rest}, readItems fuel s = .ok (vs, rest) → ∀ v ∈ vs, P v
  entries : ∀ {es s es' rest}, P (.map es) → readEntries fuel es s = .ok (es', rest) → P (.map es')

namespace Composed

variable {P : Value → Prop} (hP : Composed P) {s rest : List Char} {v : Value} {fuel : Nat}
include hP

theorem readMagnitude {negative : Bool} (h : readMagnitude negative s = .ok (v, rest)) : P v := by
  unfold Json.readMagnitude at h
  dsimp only at h
  split_ifs at h
  · split at h
    · cases h
    · cases h
      exact hP.scalar _
  · split at h
    · cases h
      exact hP.scalar _
    · cases h
      exact hP.scalar _

theorem readNumber (h : readNumber s = .ok (v, rest)) : P v := by
  unfold Json.readNumber at h
  split at h
  · exact hP.readMagnitude h
  · exact hP.readMagnitude h

theorem value_succ (ih : Reads P fuel) (h : readValue (fuel + 1) s = .ok (v, rest)) : P v := by
  rw [readValue.eq_def] at h
  dsimp only at h
  split at h
  · obtain ⟨⟨t, rest'⟩, -, h⟩ := except_bind_eq_ok.mp h
    cases h
    exact hP.scalar _
  · split at h
    · cases h
      exact hP.empty
    · obtain ⟨⟨es, rest'⟩, hes, h⟩ := except_bind_eq_ok.mp h
      cases h
      exact ih.entries hP.empty hes
  · split at h
    · cases h
      exact hP.list fun v hv => absurd hv List.not_mem_nil
    · obtain ⟨⟨vs, rest'⟩, hvs, h⟩ := except_bind_eq_ok.mp h
      cases h
      exact hP.list (ih.items hvs)
  -- words and numbers
  all_goals first
    | exact hP.readNumber h
    | (cases h; exact hP.scalar _)

omit hP in
theorem items_succ {vs : List Value} (ih : Reads P fuel)
    (h : readItems (fuel + 1) s = .ok (vs, rest)) :
    ∀ v ∈ vs, P v := by
  rw [readItems] at h
  obtain ⟨⟨v, rest'⟩, hv, h⟩ := except_bind_eq_ok.mp h
  dsimp only at h
  split at h
  · obtain ⟨⟨vs', rest''⟩, hvs, h⟩ := except_bind_eq_ok.mp h
    cases h
    exact List.forall_mem_cons.mpr ⟨ih.value hv, ih.items hvs⟩
  · cases h
    exact List.forall_mem_singleton.mpr (ih.value hv)
  · cases h

theorem entries_succ {es es' : List (Scalar × Value)} (ih : Reads P fuel) (hes : P (.map es))
    (h : readEntries (fuel + 1) es s = .ok (es', rest)) : P (.map es') := by
  rw [readEntries.eq_def] at h
  dsimp only at h
  split at h
  · obtain ⟨⟨key, rest₁⟩, -, h⟩ := except_bind_eq_ok.mp h
    dsimp only at h
    split at h
    · obtain ⟨⟨v, rest₂⟩, hv, h⟩ := except_bind_eq_ok.mp h
      have hinsert : P (.map (insertEntry (.text key) v es)) := hP.entry hes (ih.value hv)
      dsimp only at h
      split at h
      · exact ih.entries hinsert h
      · cases h
        exact hinsert
      · cases h
    · cases h
  · cases h

theorem reads (fuel : Nat) : Reads P fuel := by
  induction fuel with
  | zero =>
    constructor
    · intro s v rest h
      cases h
    · intro s vs rest h
      cases h
    · intro es s es' rest _ h
      cases h
  | succ fuel ih => exact ⟨hP.value_succ ih, items_succ ih, hP.entries_succ ih⟩

end Composed

variable {text : String} {v : Value}

/-- What is kept when values are put together holds of all that is read. -/
theorem of_read {P : Value → Prop} (hP : Composed P) (h : read text = .ok v) : P v := by
  obtain ⟨⟨v', rest⟩, hv, h⟩ := except_bind_eq_ok.mp h
  dsimp only at h
  split_ifs at h
  cases h
  exact (hP.reads _).value hv

theorem composed_isKeyed : Composed fun v => v.isKeyed = true where
  scalar _ := rfl
  list h := by rwa [Value.isKeyed, Value.areKeyed_iff]
  empty := rfl
  entry {es key v} hes hv := by
    rw [Value.isKeyed, Bool.and_eq_true, decide_eq_true_eq, Value.entriesKeyed_iff] at hes ⊢
    refine ⟨nodup_keys_insertEntry hes.1, fun e he => ?_⟩
    rcases snd_of_mem_insertEntry he with h | ⟨e', he', h⟩
    · rwa [h]
    · rw [← h]
      exact hes.2 e' he'

/-- The values that are read from JSON have different keys in each map. -/
theorem isKeyed_of_read (h : read text = .ok v) : v.isKeyed = true :=
  of_read composed_isKeyed h

theorem composed_textKeyed : Composed Value.TextKeyed where
  scalar := .scalar
  list := .list
  empty := .map (fun _ he => absurd he List.not_mem_nil) fun _ he => absurd he List.not_mem_nil
  entry {es key v} hes hv := by
    cases hes with
    | map hk hes =>
      refine .map (fun e he => ?_) fun e he => ?_
      · rcases mem_keys_insertEntry (List.mem_map_of_mem he) with hkey | hkey
        · exact ⟨key, hkey⟩
        · obtain ⟨e', he', hkey⟩ := List.mem_map.mp hkey
          exact hkey ▸ hk e' he'
      · rcases snd_of_mem_insertEntry he with h | ⟨e', he', h⟩
        · rwa [h]
        · exact h ▸ hes e' he'

/-- The values that are read from JSON have texts for keys. -/
theorem textKeyed_of_read (h : read text = .ok v) : v.TextKeyed :=
  of_read composed_textKeyed h

end Json

end ServiceContract
