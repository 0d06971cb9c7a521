import ServiceContract.Proofs.Naming.Constant
import ServiceContract.Proofs.Session.Run
import ServiceContract.Schema.Enumeration

/-!
# Names of the members of enumerations

The members of an enumeration are its values that are not null, in order, and no two of them have
one name. The name of a value is its constant form, unless a member before has that name already.
If the values are written in ASCII, all names are identifiers in both target languages as they
are, those with numbers behind them included. There are members exactly if all values are to be
written.

## Main definitions

* `MembersAfter`: the members for values, name by name.

## Main results

* `enumMembersAfter_eq_ok_iff`: the members that are made are these.
* `MembersAfter.append`, `MembersAfter.exists_of_member`: members for values that are put
  together, and the name that one of them gets.
* `MembersAfter.map_snd`, `MembersAfter.nodup`: the values and the names of members.
* `enumMembers_own_names`: the members of an enumeration.
-/

namespace ServiceContract

open Naming

/-- The names of members. -/
def memberNames (members : List (String × Value)) : List String :=
  members.map Prod.fst

/-- The members for values that come after the names in `seen` are taken. A null has no member;
every other value gets the first spelling of its constant form that is free, which is taken from
then on. -/
inductive MembersAfter : List String → List Value → List (String × Value) → Prop
  | nil (seen : List String) : MembersAfter seen [] []
  | null {seen : List String} {v : Value} {values : List Value} {members : List (String × Value)}
    (hnull : v.isNull = true) (h : MembersAfter seen values members) :
    MembersAfter seen (v :: values) members
  | member {seen : List String} {v : Value} {values : List Value}
    {members : List (String × Value)} (hnull : v.isNull = false) (hwritable : v.isWritable = true)
    (h : MembersAfter (freshName "_" seen (constant v.plain) :: seen) values members) :
    MembersAfter seen (v :: values) ((freshName "_" seen (constant v.plain), v) :: members)

section Made

variable {seen : List String} {v : Value} {values : List Value}

theorem enumMembersAfter_null (hnull : v.isNull = true) :
    enumMembersAfter seen (v :: values) = enumMembersAfter seen values := by
  rw [enumMembersAfter, if_pos hnull]

theorem enumMembersAfter_member (hnull : v.isNull = false) (hwritable : v.isWritable = true) :
    enumMembersAfter seen (v :: values) = (do
      let members ← enumMembersAfter (freshName "_" seen (constant v.plain) :: seen) values
      return (freshName "_" seen (constant v.plain), v) :: members) := by
  rw [enumMembersAfter, hnull, if_neg Bool.false_ne_true, Value.plainText, if_pos hwritable]
  rfl

/-- There are no members behind a value that is not to be written. -/
theorem enumMembersAfter_unwritable (hwritable : v.isWritable = false) :
    enumMembersAfter seen (v :: values) = .error .malformed := by
  have hnull : v.isNull = false := by
    cases v with
    | scalar s =>
      cases s with
      | null => cases hwritable
      | _ => rfl
    | _ => rfl
  rw [enumMembersAfter, hnull, if_neg Bool.false_ne_true, Value.plainText, hwritable]
  rfl

/-- The members that are made are those for the values. -/
theorem enumMembersAfter_eq_ok_iff {members : List (String × Value)} :
    enumMembersAfter seen values = .ok members ↔ MembersAfter seen values members := by
  constructor
  · intro h
    induction values generalizing seen members with
    | nil =>
      cases h
      exact .nil seen
    | cons v values ih =>
      by_cases hnull : v.isNull = true
      · rw [enumMembersAfter_null hnull] at h
        exact .null hnull (ih h)
      · rw [Bool.not_eq_true] at hnull
        by_cases hwritable : v.isWritable = true
        · rw [enumMembersAfter_member hnull hwritable, except_bind_eq_ok] at h
          obtain ⟨rest, hrest, h⟩ := h
          cases h
          exact .member hnull hwritable (ih hrest)
        · rw [enumMembersAfter_unwritable (by simpa using hwritable)] at h
          cases h
  · intro h
    induction h with
    | nil seen => rfl
    | null hnull _ ih => rw [enumMembersAfter_null hnull, ih]
    | member hnull hwritable _ ih =>
      rw [enumMembersAfter_member hnull hwritable, ih]
      rfl

variable (seen) in
/-- Values that are all to be written have members. -/
theorem exists_membersAfter (h : ∀ v ∈ values, v.isWritable = true) :
    ∃ members, MembersAfter seen values members := by
  induction values generalizing seen with
  | nil => exact ⟨[], .nil seen⟩
  | cons v values ih =>
    obtain ⟨hv, hvalues⟩ := List.forall_mem_cons.mp h
    by_cases hnull : v.isNull = true
    · obtain ⟨members, hmembers⟩ := ih seen hvalues
      exact ⟨members, .null hnull hmembers⟩
    · rw [Bool.not_eq_true] at hnull
      obtain ⟨members, hmembers⟩ := ih (freshName "_" seen (constant v.plain) :: seen) hvalues
      exact ⟨_, .member hnull hv hmembers⟩

/-- Values have no members, and are malformed, if one of them is not to be written. -/
theorem enumMembersAfter_eq_error (h : ∃ v ∈ values, v.isWritable = false) :
    enumMembersAfter seen values = .error .malformed := by
  induction values generalizing seen with
  | nil => simp at h
  | cons w values ih =>
    by_cases hwritable : w.isWritable = true
    · have hrest : ∃ v ∈ values, v.isWritable = false := by simpa [hwritable] using h
      by_cases hnull : w.isNull = true
      · rw [enumMembersAfter_null hnull, ih hrest]
      · rw [enumMembersAfter_member (by simpa using hnull) hwritable, ih hrest]
        rfl
    · exact enumMembersAfter_unwritable (by simpa using hwritable)

end Made

namespace MembersAfter

variable {seen : List String} {values : List Value} {members : List (String × Value)}

/-- The names of the first members are taken when the others get theirs. -/
theorem append {others : List Value} {rest : List (String × Value)}
    (h : MembersAfter seen values members)
    (hrest : MembersAfter ((memberNames members).reverse ++ seen) others rest) :
    MembersAfter seen (values ++ others) (members ++ rest) := by
  induction h with
  | nil seen => exact hrest
  | null hnull _ ih => exact .null hnull (ih hrest)
  | member hnull hwritable _ ih =>
    refine .member hnull hwritable (ih ?_)
    simpa [memberNames] using hrest

/-- A value that is not null gets the first free spelling of its constant form when its turn
comes. -/
theorem exists_of_member (seen : List String) {before after : List Value} {v : Value}
    (h : ∀ w ∈ before ++ v :: after, w.isWritable = true) (hnull : v.isNull = false) :
    ∃ first rest, MembersAfter seen before first ∧
      MembersAfter seen (before ++ v :: after) (first ++
        (freshName "_" ((memberNames first).reverse ++ seen) (constant v.plain), v) :: rest) := by
  obtain ⟨hbefore, hv, hafter⟩ : (∀ w ∈ before, w.isWritable = true) ∧ v.isWritable = true ∧
      ∀ w ∈ after, w.isWritable = true := by
    simpa [or_imp, forall_and] using h
  obtain ⟨first, hfirst⟩ := exists_membersAfter seen hbefore
  obtain ⟨rest, hrest⟩ := exists_membersAfter
    (freshName "_" ((memberNames first).reverse ++ seen) (constant v.plain) ::
      ((memberNames first).reverse ++ seen)) hafter
  exact ⟨first, rest, hfirst, hfirst.append (.member hnull hv hrest)⟩

/-- The values that are not null, in order. -/
theorem map_snd (h : MembersAfter seen values members) :
    members.map Prod.snd = values.filter fun v => !v.isNull := by
  induction h with
  | nil seen => rfl
  | null hnull _ ih => simp [hnull, ih]
  | member hnull hwritable _ ih => simp [hnull, ih]

/-- The names are different from each other, and from those that are taken before. -/
theorem nodup (h : MembersAfter seen values members) :
    (memberNames members).Nodup ∧ ∀ name ∈ memberNames members, name ∉ seen := by
  induction h with
  | nil seen => simp [memberNames]
  | null hnull _ ih => exact ih
  | @member seen v values members hnull hwritable _ ih =>
    obtain ⟨hnodup, hfresh⟩ := ih
    refine ⟨List.nodup_cons.mpr ⟨fun hmem => hfresh _ hmem List.mem_cons_self, hnodup⟩, ?_⟩
    exact List.forall_mem_cons.mpr ⟨freshName_not_mem _ _ _,
      fun name hname hseen => hfresh name hname (List.mem_cons_of_mem _ hseen)⟩

/-- What holds of the constant forms, and is kept by the numbers behind them, holds of all
names. -/
theorem forall_mem_memberNames {P : String → Prop}
    (hP : ∀ {name taken}, P name → P (freshName "_" taken name))
    (h : MembersAfter seen values members) (hvalues : ∀ v ∈ values, P (constant v.plain)) :
    ∀ name ∈ memberNames members, P name := by
  induction h with
  | nil seen => simp [memberNames]
  | null hnull _ ih => exact ih (List.forall_mem_cons.mp hvalues).2
  | member hnull hwritable _ ih =>
    obtain ⟨hv, hvalues⟩ := List.forall_mem_cons.mp hvalues
    exact List.forall_mem_cons.mpr ⟨hP hv, ih hvalues⟩

end MembersAfter

/-- An enumeration has members exactly if all of its values are to be written, and is malformed
otherwise. The members are the values that are not null, in order and each of them as often as it
stands there, under names that are different from each other. A value whose constant form is not
the name of a member before gets exactly this form. If all values are written in ASCII, the names
are constants, and so they are identifiers as they are. -/
theorem enumMembers_own_names (values : List Value) :
    ((∃ v ∈ values, v.isWritable = false) → enumMembers values = .error .malformed) ∧
    ((∀ v ∈ values, v.isWritable = true) → ∃ members, enumMembers values = .ok members ∧
      members.map Prod.snd = values.filter (fun v => !v.isNull) ∧
      (memberNames members).Nodup ∧
      (∀ before v after, values = before ++ v :: after → v.isNull = false →
        ∃ first, enumMembers before = .ok first ∧ (constant v.plain ∉ memberNames first →
          ∃ rest, members = first ++ (constant v.plain, v) :: rest)) ∧
      ((∀ v ∈ values, IsAscii v.plain) → ∀ m ∈ members,
        IsConstant m.1 ∧ Python.identifier m.1 = m.1 ∧ Kotlin.identifier m.1 = m.1)) := by
  refine ⟨enumMembersAfter_eq_error, fun hwritable => ?_⟩
  obtain ⟨members, hmembers⟩ := exists_membersAfter [] hwritable
  have hmade : enumMembers values = .ok members := enumMembersAfter_eq_ok_iff.mpr hmembers
  refine ⟨members, hmade, hmembers.map_snd, hmembers.nodup.1, ?_, fun hascii m hm => ?_⟩
  · rintro before v after rfl hnull
    obtain ⟨first, rest, hfirst, hall⟩ := MembersAfter.exists_of_member [] hwritable hnull
    refine ⟨first, enumMembersAfter_eq_ok_iff.mpr hfirst, fun hfree => ⟨rest, ?_⟩⟩
    have hname : freshName "_" ((memberNames first).reverse ++ []) (constant v.plain) =
        constant v.plain := freshName_of_not_mem (by simpa using hfree)
    rw [hname, ← enumMembersAfter_eq_ok_iff] at hall
    exact Except.ok.inj (hmade.symm.trans hall)
  · have hconstant : IsConstant m.1 :=
      hmembers.forall_mem_memberNames (fun h => h.freshName _)
        (fun v hv => isConstant_constant (hascii v hv)) m.1 (List.mem_map_of_mem hm)
    exact ⟨hconstant, hconstant.identifier_eq⟩

/-- Values whose constant forms meet, and a value whose form is the name that another one has got
with a number. -/
def letters : List Value :=
  [.text "a", .text "A", .null, .scalar (.int (-1)), .scalar (.int 1), .text "", .text "a_2"]

/-- The first value with a form keeps it, and all names are identifiers as they are. -/
theorem enumMembers_own_names_letters :
    (∀ v ∈ letters, v.isWritable = true) ∧ (∀ v ∈ letters, IsAscii v.plain) ∧
    ∃ members, enumMembers letters = .ok members ∧
      memberNames members = ["A", "A_2", "V_1", "V_1_2", "EMPTY", "A_2_2"] ∧
      (∃ first rest, memberNames first = ["A", "A_2"] ∧
        members = first ++ ("V_1", .scalar (.int (-1))) :: rest) ∧
      ∀ m ∈ members,
        IsConstant m.1 ∧ Python.identifier m.1 = m.1 ∧ Kotlin.identifier m.1 = m.1 := by
  have hwritable : ∀ v ∈ letters, v.isWritable = true := by
    decide +kernel
  have hascii : ∀ v ∈ letters, IsAscii v.plain := by
    decide +kernel
  have hnames : (enumMembers letters).toOption.map memberNames =
      some ["A", "A_2", "V_1", "V_1_2", "EMPTY", "A_2_2"] := by
    decide +kernel
  have hbefore : ((enumMembers [.text "a", .text "A", .null]).toOption.map memberNames) =
      some ["A", "A_2"] := by
    decide +kernel
  have hform : constant (Value.plain (.scalar (.int (-1)))) = "V_1" := by
    decide +kernel
  obtain ⟨members, hmembers, -, -, hown, hconstant⟩ := (enumMembers_own_names letters).2 hwritable
  obtain ⟨first, hfirst, hfree⟩ :=
    hown [.text "a", .text "A", .null] (.scalar (.int (-1))) _ rfl rfl
  rw [hmembers] at hnames
  rw [hfirst] at hbefore
  have hbefore : memberNames first = ["A", "A_2"] := Option.some.inj hbefore
  rw [hform, hbefore] at hfree
  obtain ⟨rest, hrest⟩ := hfree (by decide)
  exact ⟨hwritable, hascii, members, hmembers, Option.some.inj hnames,
    ⟨first, rest, hbefore, hrest⟩, hconstant hascii⟩

/-- An integer with one digit more than may be written. -/
def tooLong : Value :=
  .scalar (.int (Int.ofNat (Nat.pow 10 maxDigits)))

/-- Such an integer has no text and gives no name, and an enumeration with it has no members. -/
theorem not_enumMembers_tooLong : ¬ ∃ members, enumMembers [tooLong] = .ok members := by
  have hwritable : tooLong.isWritable = false := by
    decide +kernel
  rintro ⟨members, hmembers⟩
  rw [enumMembers, enumMembersAfter_unwritable hwritable] at hmembers
  cases hmembers

end ServiceContract
