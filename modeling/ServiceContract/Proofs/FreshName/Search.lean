import Mathlib.Data.Finset.Card
import Mathlib.Data.Finset.Image
import ServiceContract.Operation.Method
import ServiceContract.Proofs.FreshName
import ServiceContract.Proofs.Schema.Enumeration

/-!
# The search for a free name

Three names are searched for in the same way: the type name of a schema, the name of a parameter and
the name of an enumeration member. The spellings of a name are tried one after the other, without a
bound, until one is free. Since the spellings are all different, each try that fails has found
another taken name, and so there is at most one try more than there are taken names.

## Main definitions

* `Searches`: the search for a free spelling, try by try.
* `FirstFree`: the name that the search comes to, in the number of tries that are enough.

## Main results

* `le_card_of_forall_lt`: spellings that are taken are no more than the taken names.
* `freshName_firstFree`: a fresh name is the one that the search comes to.
* `renameBindings_append`: bindings that are renamed in two parts.
* `names_firstFree`: the names of types, parameters and members.
-/

namespace ServiceContract

section Search

variable (separator : String) (taken : List String) (base : String)

/-- The search goes on at the spelling with a number: with so many tries from there it comes to the
name, which is free. -/
inductive Searches : ℕ → ℕ → String → Prop
  | free {k : ℕ} (h : numbered separator base k ∉ taken) : Searches k 1 (numbered separator base k)
  | taken {k tries : ℕ} {name : String} (h : numbered separator base k ∈ taken)
    (hnext : Searches (k + 1) tries name) :
    Searches k (tries + 1) name

/-- The name is the first spelling of `base` that is not taken: `base` itself if it is free, else
`base` with the least number from 2 on behind the separator for which this is free. The search comes
to it with at most one try more than there are taken names. -/
structure FirstFree (name : String) : Prop where
  notMem : name ∉ taken
  search : ∃ tries ≤ taken.toFinset.card + 1, Searches separator taken base 0 tries name
  spelling : base ∉ taken ∧ name = base ∨
    base ∈ taken ∧ ∃ k ≥ 2, name = base ++ separator ++ toString k ∧
      ∀ i, 2 ≤ i → i < k → base ++ separator ++ toString i ∈ taken

variable {separator taken base}

/-- The search goes through the spellings that are taken to the first one that is free. -/
theorem searches_of_forall {start more : ℕ}
    (h : ∀ i, start ≤ i → i < start + more → numbered separator base i ∈ taken)
    (hfree : numbered separator base (start + more) ∉ taken) :
    Searches separator taken base start (more + 1) (numbered separator base (start + more)) := by
  induction more generalizing start with
  | zero => exact .free hfree
  | succ more ih =>
    have hnext : start + 1 + more = start + (more + 1) := by omega
    have hsearch := ih (fun i hi hlt => h i (by omega) (by omega)) (hnext ▸ hfree)
    rw [hnext] at hsearch
    exact .taken (h start le_rfl (by omega)) hsearch

/-- There are no more spellings that are taken than there are taken names. -/
theorem le_card_of_forall_lt {k : ℕ} (h : ∀ i < k, numbered separator base i ∈ taken) :
    k ≤ taken.toFinset.card := by
  have hsub : (Finset.range k).image (numbered separator base) ⊆ taken.toFinset := by
    intro name hname
    obtain ⟨i, hi, rfl⟩ := Finset.mem_image.mp hname
    exact List.mem_toFinset.mpr (h i (Finset.mem_range.mp hi))
  calc k = ((Finset.range k).image (numbered separator base)).card := by
        rw [Finset.card_image_of_injective _ (numbered_injective separator base), Finset.card_range]
    _ ≤ taken.toFinset.card := Finset.card_le_card hsub

/-- A fresh name is the one that the search comes to. -/
theorem freshName_firstFree (separator : String) (taken : List String) (base : String) :
    FirstFree separator taken base (freshName separator taken base) := by
  obtain ⟨k, hname, hfree, hleast⟩ := exists_freshName separator taken base
  rw [hname]
  refine ⟨hfree, ⟨k + 1, ?_, ?_⟩, ?_⟩
  · exact Nat.succ_le_succ (le_card_of_forall_lt hleast)
  · have hsearch : Searches separator taken base 0 (k + 1) (numbered separator base (0 + k)) :=
      searches_of_forall (fun i _ hi => hleast i (by omega)) (by simpa using hfree)
    simpa using hsearch
  · cases k with
    | zero => exact .inl ⟨hfree, rfl⟩
    | succ k =>
      refine .inr ⟨hleast 0 k.succ_pos, k + 2, by omega, rfl, fun i hi hlt => ?_⟩
      obtain ⟨i, rfl⟩ := Nat.exists_eq_add_of_le' hi
      exact hleast (i + 1) (by omega)

end Search

/-! ### Bindings and members -/

/-- The names of the first bindings are taken when the others get theirs. -/
theorem renameBindings_append (taken : List String) (before after : List Binding) :
    renameBindings taken (before ++ after) = renameBindings taken before ++
      renameBindings (((renameBindings taken before).map Binding.name).reverse ++ taken) after := by
  induction before generalizing taken with
  | nil => rfl
  | cons b before ih => simp [renameBindings, ih]

/-- A type, a parameter and a member of an enumeration get the first free spelling of their name.
Taken are the type names in the session, the names that a parameter must not have and those of the
parameters before, and the names that a member must not have and those of the members before.
Members have names by the texts of their values, so these are to be written. -/
theorem names_firstFree :
    (∀ base (s : Session), ∃ name, Build.claim base s =
      (.ok name, { s with taken := name :: s.taken }) ∧
      FirstFree "" s.taken base name) ∧
    (∀ taken before (b : Binding) after, ∃ name rest,
      renameBindings taken (before ++ b :: after) = renameBindings taken before ++
        { b with name } :: rest ∧
        FirstFree "" (((renameBindings taken before).map Binding.name).reverse ++ taken)
          b.name name) ∧
    (∀ taken before (v : Value) after, (∀ w ∈ before ++ v :: after, w.isWritable = true) →
      v.isNull = false → ∃ first name rest, enumMembersAfter taken before = .ok first ∧
        enumMembersAfter taken (before ++ v :: after) = .ok (first ++ (name, v) :: rest) ∧
        FirstFree "_" ((memberNames first).reverse ++ taken) (Naming.constant v.plain) name) := by
  refine ⟨fun base s => ⟨_, rfl, freshName_firstFree "" s.taken base⟩,
    fun taken before b after => ?_, fun taken before v after hwritable hnull => ?_⟩
  · rw [renameBindings_append, renameBindings]
    exact ⟨_, _, rfl, freshName_firstFree "" _ b.name⟩
  · obtain ⟨first, rest, hfirst, hall⟩ := MembersAfter.exists_of_member taken hwritable hnull
    exact ⟨first, _, rest, enumMembersAfter_eq_ok_iff.mpr hfirst,
      enumMembersAfter_eq_ok_iff.mpr hall, freshName_firstFree "_" _ (Naming.constant v.plain)⟩

/-- Three values with one constant form, of which the third one meets the names of the two before
and one that is taken already. -/
def pets : List Value :=
  [.text "pet", .text "Pet", .text "PET"]

/-- The third one gets the fourth spelling. -/
theorem names_firstFree_pets :
    (∀ v ∈ pets, v.isWritable = true) ∧ (Value.text "PET").isNull = false ∧
    ∃ members, enumMembersAfter ["PET_3"] pets = .ok members ∧
      memberNames members = ["PET", "PET_2", "PET_4"] ∧
      FirstFree "_" ["PET_2", "PET", "PET_3"] "PET" "PET_4" := by
  have hwritable : ∀ v ∈ pets, v.isWritable = true := by
    decide
  have hnames : (enumMembersAfter ["PET_3"] pets).toOption.map memberNames =
      some ["PET", "PET_2", "PET_4"] := by
    decide +kernel
  have hbefore : (enumMembersAfter ["PET_3"] [.text "pet", .text "Pet"]).toOption.map memberNames =
      some ["PET", "PET_2"] := by
    decide +kernel
  have hform : Naming.constant (Value.text "PET").plain = "PET" := by
    decide +kernel
  obtain ⟨-, -, hmembers⟩ := names_firstFree
  obtain ⟨first, name, rest, hfirst, hall, hfree⟩ :=
    hmembers ["PET_3"] [.text "pet", .text "Pet"] (.text "PET") [] hwritable rfl
  have hall : enumMembersAfter ["PET_3"] pets = .ok (first ++ (name, .text "PET") :: rest) := hall
  rw [hfirst] at hbefore
  rw [hall] at hnames
  have hbefore : memberNames first = ["PET", "PET_2"] := Option.some.inj hbefore
  have hnames : memberNames (first ++ (name, .text "PET") :: rest) = ["PET", "PET_2", "PET_4"] :=
    Option.some.inj hnames
  have hsplit : ["PET", "PET_2"] ++ name :: memberNames rest = ["PET", "PET_2", "PET_4"] := by
    simpa [memberNames, ← hbefore] using hnames
  obtain ⟨rfl, -⟩ : name = "PET_4" ∧ memberNames rest = [] := by simpa using hsplit
  rw [hbefore, hform] at hfree
  exact ⟨hwritable, rfl, _, hall, hnames, hfree⟩

end ServiceContract
