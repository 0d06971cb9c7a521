import ServiceContract.Proofs.Document.Json
import ServiceContract.Proofs.Text.Split

/-!
# What references lead to

A reference leads along its keys down from the root, and names the map at the end. Where a key names
nothing it cannot be resolved, with one exception: in a list a key of digits should be a position,
but some digits are no decimal digits, and a run of digits can be too long to be read. A reference
that comes to a list with such a key is malformed.

## Main definitions

* `IsUnreadable`: keys of digits that are not to be read as positions.
* `Node.Leads`: the node at the end of keys.
* `Document.Stumbles`: references that come to a list with an unreadable key.

## Main results

* `position?_eq_error_iff`: which keys are malformed as positions.
* `Document.walk_eq_ok_iff`, `Document.walk_eq_malformed_iff`: the ways of pointers.
* `Document.resolve_answers_iff`: what becomes of a reference.
-/

namespace ServiceContract

open Text

/-! ### Positions -/

/-- The key consists of digits and is still not to be read as a position: there are too many of
them, or one of them is no decimal digit. -/
structure IsUnreadable (key : String) : Prop where
  ne_empty : key ≠ ""
  digits : ∀ c ∈ key.toList, isDigitLike c = true
  unreadable : maxDigits < key.length ∨ ∃ c ∈ key.toList, isDecimalDigit c = false

theorem isSome_decimalDigitValue? (c : Char) :
    (decimalDigitValue? c).isSome = isDecimalDigit c := by
  rw [decimalDigitValue?, isDecimalDigit]
  split_ifs with hascii hdigit
  · simp [hdigit]
  · simp [hdigit]
  · rw [Option.isSome_map, CodePointRanges.has, Bool.eq_iff_iff, List.find?_isSome,
      List.any_eq_true]

/-- A run of digits stands for no number if one of them is no decimal digit. -/
theorem naturalOfDigits?_eq_none_iff {s : List Char} (hne : s ≠ []) :
    naturalOfDigits? s = none ↔ ∃ c ∈ s, isDecimalDigit c = false := by
  have hfold (s : List Char) (n : ℕ) :
      s.foldlM (fun n c => (decimalDigitValue? c).map (10 * n + ·)) n = none ↔
      ∃ c ∈ s, isDecimalDigit c = false := by
    induction s generalizing n with
    | nil => simp
    | cons c s ih =>
      rw [List.foldlM_cons, List.exists_mem_cons_iff, ← isSome_decimalDigitValue? c]
      cases decimalDigitValue? c with
      | none => simp
      | some digit => simpa using ih (10 * n + digit)
  obtain ⟨c, s, rfl⟩ := List.exists_cons_of_ne_nil hne
  exact hfold (c :: s) 0

/-- Whether a key looks like a position. -/
theorem looksLikePosition_iff {key : String} :
    (key.isEmpty || !key.toList.all isDigitLike) = false ↔
    key ≠ "" ∧ ∀ c ∈ key.toList, isDigitLike c = true := by
  rw [Bool.or_eq_false_iff, Bool.not_eq_false', List.all_eq_true, ← Bool.not_eq_true,
    String.isEmpty_iff]

/-- A key is malformed as a position if it is unreadable, and has no other fault. -/
theorem position?_eq_error_iff {key : String} {fault : Fault} :
    position? key = .error fault ↔ fault = .malformed ∧ IsUnreadable key := by
  rw [position?]
  cases hlooks : key.isEmpty || !key.toList.all isDigitLike with
  | true =>
    refine iff_of_false (fun h => nomatch h) fun h => ?_
    rw [looksLikePosition_iff.mpr ⟨h.2.ne_empty, h.2.digits⟩] at hlooks
    cases hlooks
  | false =>
    obtain ⟨hne, hdigits⟩ := looksLikePosition_iff.mp hlooks
    have hchars : key.toList ≠ [] := fun h => hne (String.toList_eq_nil_iff.mp h)
    have hmalformed : (Except.error .malformed : Except Fault (Option ℕ)) = .error fault ↔
        fault = .malformed :=
      ⟨fun h => (Except.error.inj h).symm, fun h => h ▸ rfl⟩
    rw [if_neg Bool.false_ne_true]
    split_ifs with hlong
    · exact hmalformed.trans (and_iff_left ⟨hne, hdigits, .inl hlong⟩).symm
    · cases hnumber : naturalOfDigits? key.toList with
      | none =>
        exact hmalformed.trans
          (and_iff_left
            ⟨hne, hdigits, .inr ((naturalOfDigits?_eq_none_iff hchars).mp hnumber)⟩).symm
      | some i =>
        refine iff_of_false (fun h => nomatch h) fun h =>
          h.2.unreadable.elim hlong fun hdecimal => ?_
        rw [(naturalOfDigits?_eq_none_iff hchars).mpr hdecimal] at hnumber
        cases hnumber

/-! ### Ways -/

/-- The key that a segment of a pointer stands for, as a text. -/
def segmentKey (segment : List Char) : String :=
  String.ofList (unescapeSegment segment)

/-- The keys lead from the first node down to the second one: each of them names an entry of a map,
or gives the position of an item of a list. -/
inductive Node.Leads : Node → List String → Node → Prop
  | here (n : Node) : Leads n [] n
  | entry {a : Address} {es : List (Scalar × Node)} {key : String} {child m : Node}
    {keys : List String} (hchild : lookup? key es = some child) (h : Leads child keys m) :
    Leads (.map a es) (key :: keys) m
  | item {a : Address} {items : List Node} {key : String} {i : ℕ} {item m : Node}
    {keys : List String} (hkey : position? key = .ok (some i)) (hitem : items[i]? = some item)
    (h : Leads item.opened keys m) :
    Leads (.list a items) (key :: keys) m

namespace Node

variable {n m k : Node} {key : String} {keys : List String}

theorem Leads.append {keys' : List String} (h : n.Leads keys m) (h' : m.Leads keys' k) :
    n.Leads (keys ++ keys') k := by
  induction h with
  | here => exact h'
  | entry hchild _ ih => exact .entry hchild (ih h')
  | item hkey hitem _ ih => exact .item hkey hitem (ih h')

/-- The first key leads to a child. -/
theorem leads_cons_iff :
    n.Leads (key :: keys) m ↔ ∃ child, n.enter? key = .ok (some child) ∧ child.Leads keys m := by
  constructor
  · intro h
    cases h with
    | entry hchild h => exact ⟨_, congrArg Except.ok hchild, h⟩
    | item hkey hitem h =>
      refine ⟨_, ?_, h⟩
      rw [enter?, hkey, except_ok_bind]
      simp [hitem]
      rfl
  · rintro ⟨child, henter, h⟩
    cases n with
    | map a es => exact .entry (Except.ok.inj henter) h
    | list a items =>
      obtain ⟨position, hkey, henter⟩ := except_bind_eq_ok.mp henter
      obtain ⟨i, rfl, hchild⟩ := Option.bind_eq_some_iff.mp (Except.ok.inj henter)
      obtain ⟨item, hitem, rfl⟩ := Option.map_eq_some_iff.mp hchild
      exact .item hkey hitem h
    | leaf a value => cases henter
    | link a rings => cases henter

/-- Entering a node fails only at a list, with an unreadable key. -/
theorem enter?_eq_error_iff {fault : Fault} : n.enter? key = .error fault ↔
    fault = .malformed ∧ IsUnreadable key ∧ ∃ a items, n = .list a items := by
  cases n with
  | list a items =>
    have hposition : (list a items).enter? key = .error fault ↔ position? key = .error fault := by
      rw [enter?]
      cases position? key with
      | error fault' =>
        constructor
        · rintro ⟨⟩
          rfl
        · rintro ⟨⟩
          rfl
      | ok position => exact iff_of_false nofun nofun
    rw [hposition, position?_eq_error_iff]
    simp
  | _ => exact iff_of_false nofun nofun

/-- The keys lead to a list and go on with an unreadable key. -/
def Stumbles (n : Node) (keys : List String) : Prop :=
  ∃ before key after a items, keys = before ++ key :: after ∧ n.Leads before (.list a items) ∧
    IsUnreadable key

theorem stumbles_cons_iff : n.Stumbles (key :: keys) ↔
    n.enter? key = .error .malformed ∨ ∃ child, n.enter? key = .ok (some child) ∧
    child.Stumbles keys := by
  rw [enter?_eq_error_iff]
  constructor
  · rintro ⟨before, key', after, a, items, hkeys, hleads, hunreadable⟩
    cases before with
    | nil =>
      cases hkeys
      cases hleads
      exact .inl ⟨rfl, hunreadable, a, items, rfl⟩
    | cons first before =>
      cases hkeys
      obtain ⟨child, henter, hleads⟩ := leads_cons_iff.mp hleads
      exact .inr ⟨child, henter, before, key', after, a, items, rfl, hleads, hunreadable⟩
  · rintro (⟨-, hunreadable, a, items, rfl⟩ |
      ⟨child, henter, before, key', after, a, items, rfl, hleads, hunreadable⟩)
    · exact ⟨[], key, keys, a, items, rfl, .here _, hunreadable⟩
    · exact ⟨key :: before, key', after, a, items, rfl,
        leads_cons_iff.mpr ⟨child, henter, hleads⟩, hunreadable⟩

end Node

namespace Document

/-! ### Pointers -/

section Walk

variable {ref : String} {n m : Node} {segments : List (List Char)}

/-- A pointer is followed to the node to which its keys lead. -/
theorem walk_eq_ok_iff : walk ref n segments = .ok m ↔ n.Leads (segments.map segmentKey) m := by
  induction segments generalizing n with
  | nil =>
    constructor
    · intro h
      cases h
      exact .here _
    · intro h
      cases h
      rfl
  | cons segment segments ih =>
    rw [List.map_cons, Node.leads_cons_iff, walk, except_bind_eq_ok]
    constructor
    · rintro ⟨_ | child, henter, h⟩
      · cases h
      · exact ⟨child, henter, ih.mp h⟩
    · rintro ⟨child, henter, h⟩
      exact ⟨some child, henter, ih.mpr h⟩

/-- A pointer is malformed exactly if it stumbles. -/
theorem walk_eq_malformed_iff :
    walk ref n segments = .error .malformed ↔ n.Stumbles (segments.map segmentKey) := by
  induction segments generalizing n with
  | nil =>
    refine iff_of_false nofun ?_
    rintro ⟨before, key, after, a, items, hkeys, -⟩
    cases before <;> cases hkeys
  | cons segment segments ih =>
    rw [List.map_cons, Node.stumbles_cons_iff, walk, ← segmentKey]
    cases henter : n.enter? (segmentKey segment) with
    | error fault =>
      obtain ⟨rfl, -⟩ := Node.enter?_eq_error_iff.mp henter
      exact iff_of_true rfl (.inl rfl)
    | ok found =>
      cases found with
      | none => exact iff_of_false nofun (by simp)
      | some child =>
        rw [except_ok_bind]
        exact ih.trans (by simp)

/-- A pointer that does not stumble leads to a node or cannot be resolved. -/
theorem walk_outcome (h : ¬ n.Stumbles (segments.map segmentKey)) :
    (∃ m, walk ref n segments = .ok m) ∨ ∃ reason, walk ref n segments =
      .error (.unresolvable ref reason) := by
  induction segments generalizing n with
  | nil => exact .inl ⟨n, rfl⟩
  | cons segment segments ih =>
    rw [List.map_cons, Node.stumbles_cons_iff, not_or] at h
    rw [walk, ← segmentKey]
    cases henter : n.enter? (segmentKey segment) with
    | error fault =>
      obtain ⟨rfl, -⟩ := Node.enter?_eq_error_iff.mp henter
      exact absurd henter h.1
    | ok found =>
      cases found with
      | none => exact .inr ⟨_, rfl⟩
      | some child => exact ih fun hchild => h.2 ⟨child, henter, hchild⟩

end Walk

/-- The reference stands for a pointer that stumbles on its way from the root. -/
def Stumbles (doc : Document) (ref : String) : Prop :=
  ∃ pointer, ref.toList = '#' :: '/' :: pointer ∧
    doc.root.Stumbles ((splitAt '/' pointer).map segmentKey)

/-- A reference with a pointer leads to the map at the end of the pointer. -/
theorem resolve_eq {doc : Document} {ref : String} {pointer : List Char}
    (h : ref.toList = '#' :: '/' :: pointer) :
    doc.resolve ref = (do
      let target ← walk ref doc.root (splitAt '/' pointer)
      match target with
      | .map _ _ => return target
      | _ => throw (.unresolvable ref "target is not an object")) := by
  rw [resolve, h]
  rfl

/-- A reference without one cannot be resolved. -/
theorem resolve_of_forall_ne {doc : Document} {ref : String}
    (h : ∀ pointer, ref.toList ≠ '#' :: '/' :: pointer) :
    doc.resolve ref = .error (.unresolvable ref "only local references are supported") := by
  rw [resolve]
  split
  · exact absurd ‹_› (h _)
  · rfl

section Resolve

variable (doc : Document) (ref : String)

/-- A reference is malformed exactly if it stumbles. -/
theorem resolve_eq_malformed_iff : doc.resolve ref = .error .malformed ↔ doc.Stumbles ref := by
  by_cases hlocal : ∃ pointer, ref.toList = '#' :: '/' :: pointer
  · obtain ⟨pointer, hpointer⟩ := hlocal
    have hstumbles : doc.Stumbles ref ↔ walk ref doc.root (splitAt '/' pointer) =
        .error .malformed := by
      rw [walk_eq_malformed_iff, Stumbles, hpointer]
      simp
    rw [hstumbles, resolve_eq hpointer]
    cases walk ref doc.root (splitAt '/' pointer) with
    | error fault =>
      constructor
      · rintro ⟨⟩
        rfl
      · rintro ⟨⟩
        rfl
    | ok target => cases target <;> exact iff_of_false nofun nofun
  · rw [not_exists] at hlocal
    rw [resolve_of_forall_ne hlocal]
    exact iff_of_false nofun fun ⟨pointer, hpointer, _⟩ => hlocal pointer hpointer

/-- A reference that does not stumble leads to a map or cannot be resolved. -/
theorem resolve_outcome (h : ¬ doc.Stumbles ref) :
    (∃ a es, doc.resolve ref = .ok (.map a es)) ∨ ∃ reason, doc.resolve ref =
      .error (.unresolvable ref reason) := by
  by_cases hlocal : ∃ pointer, ref.toList = '#' :: '/' :: pointer
  · obtain ⟨pointer, hpointer⟩ := hlocal
    rw [resolve_eq hpointer]
    rcases walk_outcome fun hwalk => h ⟨pointer, hpointer, hwalk⟩ with ⟨m, hm⟩ | ⟨reason, hreason⟩
    · rw [hm, except_ok_bind]
      cases m with
      | map a es => exact .inl ⟨a, es, rfl⟩
      | _ => exact .inr ⟨_, rfl⟩
    · rw [hreason]
      exact .inr ⟨reason, rfl⟩
  · rw [not_exists] at hlocal
    exact .inr ⟨_, resolve_of_forall_ne hlocal⟩

/-- A reference cannot be resolved if it leads to no map and does not stumble. The fault names the
reference. -/
theorem resolve_eq_unresolvable_iff {ref' : String} :
    (∃ reason, doc.resolve ref = .error (.unresolvable ref' reason)) ↔
      ref' = ref ∧ (∀ n, doc.resolve ref ≠ .ok n) ∧ ¬ doc.Stumbles ref := by
  constructor
  · rintro ⟨reason, h⟩
    have hstumbles : ¬ doc.Stumbles ref := fun hstumbles =>
      nomatch h.symm.trans ((resolve_eq_malformed_iff doc ref).mpr hstumbles)
    refine ⟨?_, fun n hn => (nomatch h.symm.trans hn), hstumbles⟩
    rcases resolve_outcome doc ref hstumbles with ⟨a, es, hok⟩ | ⟨reason', herror⟩
    · cases h.symm.trans hok
    · cases h.symm.trans herror
      rfl
  · rintro ⟨rfl, hnone, hstumbles⟩
    rcases resolve_outcome doc ref' hstumbles with ⟨a, es, hok⟩ | hfault
    · exact absurd hok (hnone _)
    · exact hfault

end Resolve

/-- A reference that is resolved has a pointer whose keys lead to a map. -/
theorem resolve_eq_ok_iff {doc : Document} {ref : String} {m : Node} : doc.resolve ref = .ok m ↔
    ∃ pointer, ref.toList = '#' :: '/' :: pointer ∧
      doc.root.Leads ((splitAt '/' pointer).map segmentKey) m ∧
      ∃ a es, m = .map a es := by
  constructor
  · intro h
    by_cases hlocal : ∃ pointer, ref.toList = '#' :: '/' :: pointer
    · obtain ⟨pointer, hpointer⟩ := hlocal
      rw [resolve_eq hpointer] at h
      obtain ⟨target, hwalk, h⟩ := except_bind_eq_ok.mp h
      split at h
      · cases h
        exact ⟨pointer, hpointer, walk_eq_ok_iff.mp hwalk, _, _, rfl⟩
      · cases h
    · rw [not_exists] at hlocal
      rw [resolve_of_forall_ne hlocal] at h
      cases h
  · rintro ⟨pointer, hpointer, hleads, a, es, rfl⟩
    rw [resolve_eq hpointer, walk_eq_ok_iff.mpr hleads]
    rfl

/-! ### Documents of values -/

/-- Keys lead from a part of a value to parts of the value. -/
theorem exists_at_of_leads {v w : Value} {steps : List Step} {keys : List String} {m : Node}
    (hw : v.At steps w) (h : (Node.ofValue steps w).Leads keys m) :
    ∃ steps' w', v.At steps' w' ∧ m = .ofValue steps' w' := by
  generalize hn : Node.ofValue steps w = n at h
  induction h generalizing steps w with
  | here => exact ⟨steps, w, hw, hn.symm⟩
  | @entry a es key child m keys hchild h ih =>
    cases w with
    | map entries =>
      cases hn
      obtain ⟨e, hfind, rfl⟩ := Option.map_eq_some_iff.mp hchild
      have he := List.mem_of_find?_eq_some hfind
      rw [Node.ofEntries_eq_map] at he
      obtain ⟨entry, hentry, rfl⟩ := List.mem_map.mp he
      exact ih (.entry hw hentry) (Node.opened_ofValue _ _).symm
    | _ => cases hn
  | @item a items key i item m keys hkey hitem h ih =>
    cases w with
    | list values =>
      cases hn
      obtain ⟨j, value, hvalue, rfl⟩ := Node.mem_ofItems (List.mem_of_getElem? hitem)
      exact ih (.item hw hvalue) (by rw [Node.opened_ofValue, Nat.zero_add])
    | _ => cases hn

/-- A reference leads to a map of the document or cannot be resolved, exactly if it does not come to
a list with an unreadable key. If it does, it is malformed. -/
theorem resolve_answers_iff (v : Value) (ref : String) :
    (((∃ steps es, v.At steps (.map es) ∧ (ofValue v).resolve ref =
      .ok (.ofValue steps (.map es))) ∨
        ∃ reason, (ofValue v).resolve ref = .error (.unresolvable ref reason)) ↔
          ¬ (ofValue v).Stumbles ref) ∧
      ((ofValue v).resolve ref = .error .malformed ↔ (ofValue v).Stumbles ref) := by
  refine ⟨⟨?_, fun h => ?_⟩, resolve_eq_malformed_iff _ ref⟩
  · rw [← resolve_eq_malformed_iff]
    rintro (⟨steps, es, -, h⟩ | ⟨reason, h⟩) hmalformed
    · cases h.symm.trans hmalformed
    · cases h.symm.trans hmalformed
  · refine (resolve_outcome _ ref h).imp_left ?_
    rintro ⟨a, es, hresolve⟩
    obtain ⟨pointer, -, hleads, -⟩ := resolve_eq_ok_iff.mp hresolve
    obtain ⟨steps, w, hw, hnode⟩ := exists_at_of_leads .root hleads
    cases w with
    | map entries => exact ⟨steps, entries, hw, hnode ▸ hresolve⟩
    | _ => cases hnode

/-- A document with a list. -/
def listed : Document :=
  .ofValue (.map [(.text "a", .list [.map []])])

/-- A superscript is a digit that is no decimal digit: behind a pointer to a list it makes a
reference malformed. -/
theorem not_resolve_answers_superscript : listed.resolve "#/a/²" = .error .malformed ∧
    ¬ ((∃ n, listed.resolve "#/a/²" = .ok n) ∨
      ∃ reason, listed.resolve "#/a/²" = .error (.unresolvable "#/a/²" reason)) := by
  have hmalformed : listed.resolve "#/a/²" = .error .malformed := rfl
  rw [hmalformed]
  exact ⟨rfl, fun h => h.elim (fun ⟨n, h⟩ => nomatch h) fun ⟨reason, h⟩ => nomatch h⟩

end Document

end ServiceContract
