import ServiceContract.Proofs.Document.Reference
import ServiceContract.Proofs.Text.Replace

/-!
# Pointers to the parts of a document

A pointer is written by joining the keys and positions on the way from the root to a part. In a key
the tilde and the slash are escaped, so that the keys come back when the pointer is read, whatever
they are. The pointer to a map, as a reference, leads to this map.

## Main definitions

* `escapeSegment`: a key as a segment of a pointer.
* `Step.text`: a step of a way as it is written.
* `pointer`: the reference with given keys.

## Main results

* `unescapeSegment_escapeSegment`: keys come back.
* `position?_toString`: positions come back.
* `Node.leads_of_at`: ways in values lead through their nodes.
* `Document.resolve_pointer_of_at`: what pointers lead to.
-/

namespace ServiceContract

open Text

/-! ### Keys as segments -/

/-- The key as a segment of a pointer: `~0` stands for a tilde and `~1` for a slash. -/
def escapeSegment (key : List Char) : List Char :=
  replaceAll ['/'] ['~', '1'] (replaceAll ['~'] ['~', '0'] key)

/-- A slash is always escaped. -/
theorem slash_notMem_escapeSegment (key : List Char) : '/' ∉ escapeSegment key := by
  rw [escapeSegment, replaceAll_singleton, List.mem_flatMap]
  rintro ⟨c, -, hc⟩
  split_ifs at hc with hslash
  · simp at hc
  · exact hslash (List.mem_singleton.mp hc).symm

/-- Behind an escaped tilde there is a zero, so tildes come back. -/
theorem replaceAll_tilde (key : List Char) :
    replaceAll ['~', '0'] ['~'] (replaceAll ['~'] ['~', '0'] key) = key := by
  induction key with
  | nil => rfl
  | cons c key ih =>
    rw [replaceAll_singleton, List.flatMap_cons, ← replaceAll_singleton]
    split_ifs with hc
    · rw [replaceAll_append (List.cons_ne_nil _ _), ih, hc]
      rfl
    · rw [List.singleton_append, replaceAll_cons fun h =>
        hc (List.cons_prefix_cons.mp h).1.symm, ih]

theorem escapeSegment_cons (c : Char) (key : List Char) : escapeSegment (c :: key) =
    (if c = '~' then ['~', '0'] else if c = '/' then ['~', '1'] else [c]) ++ escapeSegment key := by
  simp only [escapeSegment, replaceAll_singleton, List.flatMap_cons, List.flatMap_append]
  congr 1
  by_cases hc : c = '~'
  · simp [hc]
  · simp [hc]

/-- The tildes in front of a one are those of slashes. -/
theorem replaceAll_slash (key : List Char) :
    replaceAll ['~', '1'] ['/'] (escapeSegment key) = replaceAll ['~'] ['~', '0'] key := by
  induction key with
  | nil => rfl
  | cons c key ih =>
    rw [escapeSegment_cons, replaceAll_singleton, List.flatMap_cons, ← replaceAll_singleton, ← ih]
    split_ifs with htilde hslash
    -- The zero behind an escaped tilde tells it from an escaped slash.
    · rw [List.cons_append, replaceAll_cons (by simp), List.singleton_append,
        replaceAll_cons (by simp)]
      rfl
    · rw [replaceAll_append (List.cons_ne_nil _ _), hslash]
    · rw [List.singleton_append, replaceAll_cons fun h =>
        htilde (List.cons_prefix_cons.mp h).1.symm]
      rfl

/-- The key of a segment is the one that was escaped. -/
theorem unescapeSegment_escapeSegment (key : List Char) :
    unescapeSegment (escapeSegment key) = key := by
  rw [unescapeSegment, replaceAll_slash, replaceAll_tilde]

/-! ### Positions in decimal -/

/-- A run of decimal digits stands for the number that the library reads. -/
theorem naturalOfDigits?_eq_ofDigitChars {s : List Char} (hne : s ≠ [])
    (hs : ∀ c ∈ s, c.isDigit = true) :
    naturalOfDigits? s = some (Nat.ofDigitChars 10 s 0) := by
  have hfold (s : List Char) (n : ℕ) (hs : ∀ c ∈ s, c.isDigit = true) :
      s.foldlM (fun n c => (decimalDigitValue? c).map (10 * n + ·)) n =
      some (Nat.ofDigitChars 10 s n) := by
    induction s generalizing n with
    | nil => rfl
    | cons c s ih =>
      obtain ⟨hc, hs⟩ := List.forall_mem_cons.mp hs
      rw [List.foldlM_cons, decimalDigitValue?,
        if_pos (lt_of_isAlphanum (isAlphanum_of_isDigit hc)), if_pos hc]
      exact ih _ hs
  obtain ⟨c, s, rfl⟩ := List.exists_cons_of_ne_nil hne
  exact hfold (c :: s) 0 hs

/-- A position that is to be written is read again. -/
theorem position?_toString {i : ℕ} (h : (Scalar.int i).isWritable = true) :
    position? (toString i) = .ok (some i) := by
  have hlist : (toString i).toList = Nat.toDigits 10 i := by simp
  have hdigits : ∀ c ∈ Nat.toDigits 10 i, c.isDigit = true := fun c hc =>
    Nat.isDigit_of_mem_toDigits (by decide) (by decide) hc
  have hlong : ¬ maxDigits < (toString i).length := by
    rw [Scalar.isWritable, decide_eq_true_eq, Int.natAbs_natCast] at h
    have hpos : 0 < maxDigits := by decide
    -- The power is not to be evaluated.
    generalize maxDigits = bound at h hpos ⊢
    rw [← String.length_toList, hlist, not_lt]
    exact (Nat.length_toDigits_le_iff (by decide) hpos).mpr h
  have hlooks : ((toString i).isEmpty || !(toString i).toList.all isDigitLike) = false := by
    refine looksLikePosition_iff.mpr ⟨fun hempty => ?_, fun c hc => ?_⟩
    · rw [hempty] at hlist
      exact Nat.toDigits_ne_nil hlist.symm
    · exact isDigitLike_of_isDigit (hdigits c (hlist ▸ hc))
  rw [position?, if_neg (by rw [hlooks]; exact Bool.false_ne_true), if_neg hlong, hlist,
    naturalOfDigits?_eq_ofDigitChars Nat.toDigits_ne_nil hdigits,
    Nat.ofDigitChars_toDigits (by decide) (by decide)]

/-! ### Ways of values -/

/-- A step as it is written: the key, or the position in decimal. -/
def Step.text : Step → String
  | .key k => k.plain
  | .index i => toString i

/-- The parts of a value have texts for keys too. -/
theorem Value.At.textKeyed {v w : Value} {steps : List Step} (h : v.At steps w) (hv : v.TextKeyed) :
    w.TextKeyed := by
  induction h with
  | root => exact hv
  | item _ hw ih =>
    cases ih with
    | list hitems => exact hitems _ (List.mem_of_getElem? hw)
  | entry _ hw ih =>
    cases ih with
    | map _ hvalues => exact hvalues _ hw

/-- The way from the root of a value to a part leads through their nodes, if its positions are to be
written. -/
theorem Node.leads_of_at {v w : Value} {steps : List Step} (hkeyed : v.isKeyed = true)
    (htexts : v.TextKeyed) (h : v.At steps w)
    (hwritten : ∀ i : ℕ, .index i ∈ steps → (Scalar.int i).isWritable = true) :
    (Node.ofValue [] v).Leads (steps.reverse.map Step.text) (Node.ofValue steps w) := by
  induction h with
  | root => exact .here _
  | @item steps items i w h hw ih =>
    have hitem := getElem?_ofItems steps 0 items i
    rw [hw, Option.map_some, Nat.zero_add] at hitem
    have hstep : (Node.ofValue steps (.list items)).Leads [Step.text (.index i)]
        (Node.ofValue (.index i :: steps) w) :=
      .item (position?_toString (hwritten i List.mem_cons_self)) hitem
        (by rw [opened_ofValue]; exact .here _)
    rw [List.reverse_cons, List.map_append]
    exact (ih fun j hj => hwritten j (List.mem_cons_of_mem _ hj)).append hstep
  | @entry steps es k w h hw ih =>
    obtain ⟨key, rfl⟩ : ∃ key, k = .text key := by
      cases h.textKeyed htexts with
      | map hkeys _ => exact hkeys _ hw
    have hfound : lookup? key (ofEntries steps es) =
        some (Node.ofValue (.key (.text key) :: steps) w) := by
      obtain ⟨before, after, rfl⟩ := List.append_of_mem hw
      have hbefore := (Value.isKeyed_entry (h.isKeyed hkeyed)).1
      rw [lookup?, ofEntries_eq_map, List.map_append, List.map_cons, find?_entry, Option.map_some,
        opened_ofValue]
      exact List.forall_mem_map.mpr hbefore
    have hstep : (Node.ofValue steps (.map es)).Leads [Step.text (.key (.text key))]
        (Node.ofValue (.key (.text key) :: steps) w) :=
      .entry hfound (.here _)
    rw [List.reverse_cons, List.map_append]
    exact (ih fun j hj => hwritten j (List.mem_cons_of_mem _ hj)).append hstep

/-! ### Pointers -/

/-- The reference with the given keys, from the root down. -/
def pointer (keys : List String) : String :=
  String.ofList ('#' :: '/' :: ['/'].intercalate (keys.map fun key => escapeSegment key.toList))

theorem toList_pointer (keys : List String) : (pointer keys).toList =
    '#' :: '/' :: ['/'].intercalate (keys.map fun key => escapeSegment key.toList) :=
  String.toList_ofList

/-- The segments of a pointer are the escaped keys. -/
theorem splitAt_pointer {keys : List String} (hne : keys ≠ []) :
    splitAt '/' (['/'].intercalate (keys.map fun key => escapeSegment key.toList)) =
      keys.map fun key => escapeSegment key.toList :=
  splitAt_intercalate (mt List.map_eq_nil_iff.mp hne)
    (List.forall_mem_map.mpr fun key _ => slash_notMem_escapeSegment key.toList)

theorem segmentKey_escapeSegment (key : String) : segmentKey (escapeSegment key.toList) = key := by
  rw [segmentKey, unescapeSegment_escapeSegment, String.ofList_toList]

/-- A pointer is named by its last key. -/
theorem referenceName_pointer (keys : List String) (key : String) :
    referenceName (pointer (keys ++ [key])) = key := by
  have hne : keys ++ [key] ≠ [] := List.append_ne_nil_of_right_ne_nil _ (List.cons_ne_nil _ _)
  have hsplit : splitAt '/' (pointer (keys ++ [key])).toList =
      ['#'] :: (keys ++ [key]).map fun key => escapeSegment key.toList := by
    rw [toList_pointer, splitAt, if_neg (by decide), splitAt, if_pos rfl, splitAt_pointer hne]
  rw [referenceName, hsplit, List.map_append, ← List.cons_append, List.map_singleton,
    List.getLast?_concat, Option.getD_some]
  exact segmentKey_escapeSegment key

namespace Document

/-- The reference with the keys that lead from the root to a map is resolved to this map. -/
theorem resolve_pointer {doc : Document} {keys : List String} {a : Address}
    {es : List (Scalar × Node)} (hne : keys ≠ []) (h : doc.root.Leads keys (.map a es)) :
    doc.resolve (pointer keys) = .ok (.map a es) := by
  refine resolve_eq_ok_iff.mpr ⟨_, toList_pointer keys, ?_, a, es, rfl⟩
  rw [splitAt_pointer hne, List.map_map]
  simpa [Function.comp_def, segmentKey_escapeSegment] using h

/-- Keys that lead to a list and go on with an unreadable key make a pointer that stumbles. -/
theorem stumbles_pointer {doc : Document} {keys : List String} (hne : keys ≠ [])
    (h : doc.root.Stumbles keys) :
    doc.Stumbles (pointer keys) := by
  refine ⟨_, toList_pointer keys, ?_⟩
  rw [splitAt_pointer hne, List.map_map]
  simpa [Function.comp_def, segmentKey_escapeSegment] using h

/-- The way from the root of a JSON document to a map, written as a pointer, leads to this map, and
the pointer is named by the last step. Positions are written in decimal; this is ruled out only for
numbers far beyond the size of any list. -/
theorem resolve_pointer_of_at {text : String} {v : Value} {step : Step} {steps : List Step}
    {es : List (Scalar × Value)} (hv : Json.read text = .ok v) (h : v.At (step :: steps) (.map es))
    (hwritten : ∀ i : ℕ, .index i ∈ step :: steps → (Scalar.int i).isWritable = true) :
    (ofValue v).resolve (pointer ((step :: steps).reverse.map Step.text)) =
        .ok (.ofValue (step :: steps) (.map es)) ∧
      referenceName (pointer ((step :: steps).reverse.map Step.text)) = step.text := by
  have hleads := Node.leads_of_at (Json.isKeyed_of_read hv) (Json.textKeyed_of_read hv) h hwritten
  rw [List.reverse_cons, List.map_append] at hleads ⊢
  exact ⟨resolve_pointer (List.append_ne_nil_of_right_ne_nil _ (List.cons_ne_nil _ _)) hleads,
    referenceName_pointer _ step.text⟩

/-- A JSON text with an object behind an empty key, a position, a slash and an escape sequence. -/
def escapesText : String :=
  "\x7b\"\":[\x7b\"a/b\":\x7b\"~1\":\x7b\x7d\x7d\x7d]\x7d"

/-- The keys around the inmost map of a value that has the form of this text. -/
def escapesKeys : Value → List Scalar
  | .map [(outer, .list [.map [(middle, .map [(inner, .map [])])]])] => [outer, middle, inner]
  | _ => []

/-- All four are on the way to the inmost object. -/
theorem resolve_pointer_of_at_escapes :
    ∃ v, Json.read escapesText = .ok v ∧
      v.At [.key (.text "~1"), .key (.text "a/b"), .index 0, .key (.text "")] (.map []) ∧
      (ofValue v).resolve "#//0/a~1b/~01" =
        .ok (.ofValue
          [.key (.text "~1"), .key (.text "a/b"), .index 0, .key (.text "")] (.map [])) ∧
      referenceName "#//0/a~1b/~01" = "~1" := by
  have hread : ((Json.read escapesText).toOption.any fun v =>
      escapesKeys v == [.text "", .text "a/b", .text "~1"]) = true := by
    decide +kernel
  obtain ⟨v, hv, hkeys⟩ := exists_of_any hread
  have hkeys := beq_iff_eq.mp hkeys
  have hat : v.At [.key (.text "~1"), .key (.text "a/b"), .index 0, .key (.text "")] (.map []) := by
    unfold escapesKeys at hkeys
    split at hkeys
    · cases hkeys
      exact .entry (.entry (.item (.entry .root List.mem_cons_self) rfl) List.mem_cons_self)
        List.mem_cons_self
    · cases hkeys
  have hwritten :
      ∀ i : ℕ, .index i ∈ [Step.key (.text "~1"), .key (.text "a/b"), .index 0, .key (.text "")] →
      (Scalar.int i).isWritable = true := by
    intro i hi
    obtain rfl : i = 0 := by simpa using hi
    decide +kernel
  have hpointer : pointer ["", "0", "a/b", "~1"] = "#//0/a~1b/~01" := by decide +kernel
  have hresolve := resolve_pointer_of_at hv hat hwritten
  exact ⟨v, hv, hat, hpointer ▸ hresolve⟩

end Document

end ServiceContract
