import Mathlib.Data.List.Induction
import Mathlib.Data.List.Nodup
import Mathlib.Tactic.SplitIfs
import ServiceContract.Value

/-!
# Entries of maps

An assignment to a key gives a new value to the entry with this key, or adds an entry behind all
others. So the keys of a map stay different from each other. Several assignments leave each key
where it was assigned first, with the value that it was assigned last, and it does not matter
whether entries are put together before they are assigned.

## Main definitions

* `assign`, `assignAll`: assignments, one or several.
* `textual`: entries with texts as keys.

## Main results

* `snd_of_mem_insertEntry`: the values after an assignment.
* `nodup_keys_insertEntry`: the keys after an assignment.
* `assignAll_assignAll`: assignments of entries that come from assignments.
* `map_fst_assignAll`, `last_of_mem_assignAll`: the keys and the values after several assignments.
* `find?_entry`, `find?_entry_of_ne`: entries that are found and entries that do not matter.
-/

namespace ServiceContract

/-! ### Entries in their places -/

section Find

variable {α : Type} {before after : List (Scalar × α)} {key key' : String} {a : α}

/-- The first entry with a key is found at it. -/
theorem find?_entry (h : ∀ e ∈ before, e.1 ≠ .text key) :
    (before ++ (.text key, a) :: after).find? (fun e => e.1 == .text key) =
      some (.text key, a) := by
  rw [List.find?_append, List.find?_eq_none.mpr fun e he => by simp [h e he]]
  simp

/-- An entry with another key does not matter. -/
theorem find?_entry_of_ne (hne : key' ≠ key) :
    (before ++ (.text key, a) :: after).find? (fun e => e.1 == .text key') =
      (before ++ after).find? fun e => e.1 == .text key' := by
  rw [List.find?_append, List.find?_append, List.find?_cons_of_neg (by simpa using hne.symm)]

end Find

/-! ### Assignments -/

/-- A value after an assignment is the assigned one or one from before. -/
theorem snd_of_mem_insertEntry {α : Type} {key : Scalar} {value : α} {es : List (Scalar × α)}
    {e : Scalar × α} (h : e ∈ insertEntry key value es) : e.2 = value ∨ ∃ e' ∈ es, e'.2 = e.2 := by
  induction es with
  | nil => exact .inl (congrArg Prod.snd (List.mem_singleton.mp h))
  | cons entry es ih =>
    rw [insertEntry] at h
    split_ifs at h
    · rcases List.mem_cons.mp h with rfl | h
      · exact .inl rfl
      · exact .inr ⟨e, List.mem_cons_of_mem _ h, rfl⟩
    · rcases List.mem_cons.mp h with rfl | h
      · exact .inr ⟨e, List.mem_cons_self, rfl⟩
      · exact (ih h).imp_right fun ⟨e', he', h⟩ => ⟨e', List.mem_cons_of_mem _ he', h⟩

/-- An assignment keeps the keys, or adds one that is different from all of them. -/
theorem mem_keys_insertEntry {α : Type} {key k : Scalar} {value : α} {es : List (Scalar × α)}
    (h : k ∈ (insertEntry key value es).map Prod.fst) : k = key ∨ k ∈ es.map Prod.fst := by
  induction es with
  | nil => exact .inl (List.mem_singleton.mp h)
  | cons e es ih =>
    rw [insertEntry] at h
    split_ifs at h
    · exact .inr h
    · rcases List.mem_cons.mp h with rfl | h
      · exact .inr List.mem_cons_self
      · exact (ih h).imp_right (List.mem_cons_of_mem _)

theorem nodup_keys_insertEntry {α : Type} {key : Scalar} {value : α} {es : List (Scalar × α)}
    (h : (es.map Prod.fst).Nodup) : ((insertEntry key value es).map Prod.fst).Nodup := by
  induction es with
  | nil => exact List.nodup_singleton key
  | cons e es ih =>
    obtain ⟨he, hes⟩ := List.nodup_cons.mp h
    rw [insertEntry]
    split_ifs with hsame
    · exact h
    · refine List.nodup_cons.mpr ⟨fun hk => ?_, ih hes⟩
      rcases mem_keys_insertEntry hk with heq | hk
      · exact hsame (by simp [Scalar.isSame, heq])
      · exact he hk

/-! ### Assignments in their places -/

section Assign

variable {κ α : Type} [DecidableEq κ] {es fs gs : List (κ × α)}

/-- The entries after an assignment to a key: the entry with this key keeps its place. -/
def assign (es : List (κ × α)) (e : κ × α) : List (κ × α) :=
  match es with
  | [] => [e]
  | e' :: es => if e'.1 = e.1 then e :: es else e' :: assign es e

/-- The entries after assignments, one after the other. -/
def assignAll (es fs : List (κ × α)) : List (κ × α) :=
  fs.foldl assign es

theorem assign_of_notMem {e : κ × α} (h : e.1 ∉ es.map Prod.fst) : assign es e = es ++ [e] := by
  induction es with
  | nil => rfl
  | cons e' es ih =>
    obtain ⟨hne, hes⟩ := not_or.mp (mt List.mem_cons.mpr h)
    rw [assign, if_neg (Ne.symm hne), ih hes, List.cons_append]

theorem map_fst_assign_of_mem {e : κ × α} (h : e.1 ∈ es.map Prod.fst) :
    (assign es e).map Prod.fst = es.map Prod.fst := by
  induction es with
  | nil => cases h
  | cons e' es ih =>
    rw [assign]
    by_cases hsame : e'.1 = e.1
    · rw [if_pos hsame, List.map_cons, List.map_cons, hsame]
    · rw [if_neg hsame, List.map_cons, ih ((List.mem_cons.mp h).resolve_left (Ne.symm hsame)),
        List.map_cons]

/-- Assignments to different keys may be exchanged if one of the keys is there already. -/
theorem assign_assign_of_ne {e f : κ × α} (hne : e.1 ≠ f.1) (h : e.1 ∈ es.map Prod.fst) :
    assign (assign es f) e = assign (assign es e) f := by
  induction es with
  | nil => cases h
  | cons e' es ih =>
    by_cases hf : e'.1 = f.1
    · have he : e'.1 ≠ e.1 := fun he => hne (he.symm.trans hf)
      simp [assign, hf, hne.symm]
    · by_cases he : e'.1 = e.1
      · simp [assign, he, hne]
      · have hmem := (List.mem_cons.mp h).resolve_left (Ne.symm he)
        simp [assign, hf, he, ih hmem]

theorem assign_assign_of_eq {e f : κ × α} (h : e.1 = f.1) :
    assign (assign es f) e = assign es e := by
  induction es with
  | nil => simp [assign, h]
  | cons e' es ih =>
    by_cases hf : e'.1 = f.1
    · simp [assign, hf, h]
    · simp [assign, hf, h, ih]

theorem mem_assign {e : κ × α} {k : κ} (h : k ∈ es.map Prod.fst) :
    k ∈ (assign es e).map Prod.fst := by
  by_cases he : e.1 ∈ es.map Prod.fst
  · rwa [map_fst_assign_of_mem he]
  · rw [assign_of_notMem he, List.map_append]
    exact List.mem_append_left _ h

theorem key_mem_assign (e : κ × α) : e.1 ∈ (assign es e).map Prod.fst := by
  by_cases he : e.1 ∈ es.map Prod.fst
  · exact mem_assign he
  · simp [assign_of_notMem he]

theorem mem_keys_assign {e : κ × α} {k : κ} (h : k ∈ (assign es e).map Prod.fst) :
    k = e.1 ∨ k ∈ es.map Prod.fst := by
  by_cases he : e.1 ∈ es.map Prod.fst
  · exact .inr (map_fst_assign_of_mem he ▸ h)
  · rw [assign_of_notMem he, List.map_append, List.mem_append] at h
    exact h.symm.imp_left List.mem_singleton.mp

/-- An assignment to a key that is there already may come before assignments to other keys. -/
theorem assign_assignAll {e : κ × α} (h : e.1 ∈ es.map Prod.fst) (hfs : e.1 ∉ fs.map Prod.fst) :
    assign (assignAll es fs) e = assignAll (assign es e) fs := by
  induction fs generalizing es with
  | nil => rfl
  | cons f fs ih =>
    obtain ⟨hne, hfs⟩ := not_or.mp (mt List.mem_cons.mpr hfs)
    change assign (assignAll (assign es f) fs) e = assignAll (assign (assign es e) f) fs
    rw [ih (mem_assign h) hfs, assign_assign_of_ne hne h]

theorem assignAll_assign {e : κ × α} (hfs : (fs.map Prod.fst).Nodup) :
    assignAll es (assign fs e) = assign (assignAll es fs) e := by
  induction fs generalizing es with
  | nil => rfl
  | cons f fs ih =>
    obtain ⟨hf, hfs⟩ := List.nodup_cons.mp hfs
    rw [assign]
    by_cases h : f.1 = e.1
    · rw [if_pos h]
      change assignAll (assign es e) fs = assign (assignAll (assign es f) fs) e
      rw [assign_assignAll (h ▸ key_mem_assign f) (h ▸ hf), assign_assign_of_eq h.symm]
    · rw [if_neg h]
      exact ih hfs

theorem nodup_assign {e : κ × α} (h : (es.map Prod.fst).Nodup) :
    ((assign es e).map Prod.fst).Nodup := by
  by_cases he : e.1 ∈ es.map Prod.fst
  · rwa [map_fst_assign_of_mem he]
  · rw [assign_of_notMem he, List.map_append]
    exact List.nodup_append.mpr ⟨h, List.nodup_singleton _, fun a ha b hb hab => by simp_all⟩

theorem nodup_assignAll (hes : (es.map Prod.fst).Nodup) :
    ((assignAll es fs).map Prod.fst).Nodup := by
  induction fs generalizing es with
  | nil => exact hes
  | cons f fs ih => exact ih (nodup_assign hes)

/-- Assigning entries that come from assignments is assigning them one after the other. -/
theorem assignAll_assignAll (hfs : (fs.map Prod.fst).Nodup) :
    assignAll es (assignAll fs gs) = assignAll (assignAll es fs) gs := by
  induction gs generalizing fs with
  | nil => rfl
  | cons g gs ih =>
    change assignAll es (assignAll (assign fs g) gs) = assignAll (assign (assignAll es fs) g) gs
    rw [ih (nodup_assign hfs), assignAll_assign hfs]

theorem assignAll_append (es fs gs : List (κ × α)) :
    assignAll es (fs ++ gs) = assignAll (assignAll es fs) gs :=
  List.foldl_append

/-- The keys after assignments to nothing, in the order of their first assignments. -/
theorem map_fst_assignAll (fs : List (κ × α)) :
    (assignAll [] fs).map Prod.fst = (fs.map Prod.fst).eraseDups := by
  induction fs using List.reverseRecOn with
  | nil => rfl
  | append_singleton fs f ih =>
    rw [assignAll, List.foldl_append, ← assignAll, List.map_append, List.eraseDups_append, ← ih]
    change (assign (assignAll [] fs) f).map Prod.fst = _
    by_cases h : f.1 ∈ fs.map Prod.fst
    · have hmem : f.1 ∈ (assignAll [] fs).map Prod.fst := by rwa [ih, List.mem_eraseDups]
      rw [map_fst_assign_of_mem hmem]
      simp [List.removeAll, h]
    · have hmem : f.1 ∉ (assignAll [] fs).map Prod.fst := by rwa [ih, List.mem_eraseDups]
      rw [assign_of_notMem hmem, List.map_append]
      simp [List.removeAll, h, List.eraseDups_cons]

/-- An entry after an assignment is the assigned one, or one from before with another key. -/
theorem eq_or_mem_of_mem_assign {e f : κ × α} (hes : (es.map Prod.fst).Nodup)
    (h : e ∈ assign es f) :
    e = f ∨ e ∈ es ∧ e.1 ≠ f.1 := by
  induction es with
  | nil => exact .inl (List.mem_singleton.mp h)
  | cons e' es ih =>
    obtain ⟨he', hes⟩ := List.nodup_cons.mp hes
    rw [assign] at h
    by_cases hsame : e'.1 = f.1
    · rw [if_pos hsame] at h
      refine (List.mem_cons.mp h).imp_right fun hmem =>
        ⟨List.mem_cons_of_mem _ hmem, fun heq => he' ?_⟩
      rw [hsame, ← heq]
      exact List.mem_map_of_mem hmem
    · rw [if_neg hsame] at h
      rcases List.mem_cons.mp h with rfl | hmem
      · exact .inr ⟨List.mem_cons_self, hsame⟩
      · exact (ih hes hmem).imp_right fun ⟨hmem, hne⟩ => ⟨List.mem_cons_of_mem _ hmem, hne⟩

/-- The value after assignments to nothing is the one of the last assignment to its key. -/
theorem last_of_mem_assignAll {fs : List (κ × α)} {e : κ × α} (h : e ∈ assignAll [] fs) :
    ∃ before after, fs = before ++ e :: after ∧ e.1 ∉ after.map Prod.fst := by
  induction fs using List.reverseRecOn with
  | nil => cases h
  | append_singleton fs f ih =>
    rw [assignAll, List.foldl_append, ← assignAll] at h
    change e ∈ assign (assignAll [] fs) f at h
    have hnil : (([] : List (κ × α)).map Prod.fst).Nodup := List.nodup_nil
    rcases eq_or_mem_of_mem_assign (nodup_assignAll hnil) h with rfl | ⟨hmem, hne⟩
    · exact ⟨fs, [], rfl, List.not_mem_nil⟩
    · obtain ⟨before, after, rfl, hafter⟩ := ih hmem
      refine ⟨before, after ++ [f], by simp, ?_⟩
      rw [List.map_append, List.mem_append, not_or]
      exact ⟨hafter, by simpa using hne⟩

end Assign

/-! ### Texts as keys -/

section Texts

variable {α : Type} {key key' : String}

/-- The entries with texts as keys. -/
def textual (es : List (String × α)) : List (Scalar × α) :=
  es.map fun e => (.text e.1, e.2)

theorem isSame_text : (Scalar.text key).isSame (.text key') = true ↔ key = key' := by
  simp [Scalar.isSame, Scalar.integer?, Scalar.instant?]

theorem insertEntry_textual (es : List (String × α)) (e : String × α) :
    insertEntry (.text e.1) e.2 (textual es) = textual (assign es e) := by
  induction es with
  | nil => rfl
  | cons e' es ih =>
    rw [assign]
    by_cases h : e'.1 = e.1
    · rw [if_pos h, textual, List.map_cons, insertEntry, if_pos (isSame_text.mpr h), h]
      rfl
    · rw [if_neg h, textual, List.map_cons, insertEntry, if_neg (mt isSame_text.mp h),
        ← textual, ih]
      rfl

theorem foldl_insertEntry_textual (es fs : List (String × α)) :
    (textual fs).foldl (fun es e => insertEntry e.1 e.2 es) (textual es) =
      textual (assignAll es fs) := by
  induction fs generalizing es with
  | nil => rfl
  | cons f fs ih =>
    change (textual fs).foldl _ (insertEntry (.text f.1) f.2 (textual es)) =
      textual (assignAll (assign es f) fs)
    rw [insertEntry_textual, ih]

end Texts

end ServiceContract
