import ServiceContract.Proofs.Document.PathItem
import ServiceContract.Proofs.Document.Shared

/-!
# Documents with another value at one place

In a document the value at the end of a path of keys is replaced. What stands apart from this path
is not touched, and it leads down to nothing but what stands apart too. A reference may lead
anywhere; but one whose pointer leaves the path before its end, and does not end on it, goes the
same way in both documents from the root to the place where it leaves the path, and leads to what
stands apart from there. So if all references outside of the value are like that, the two documents
have all in common that stands apart from the path.

## Main definitions

* `Value.Edited`: values that are the same but for what stands at the end of a path.
* `Value.replace?`: the value with another one at the end of a path.
* `Value.references`: the references in a value.
* `Value.Unreferenced`: no reference from outside meets the path.
* `Value.Common`: what the documents have in common.

## Main results

* `Value.Edited.resolve`: references that do not meet the path.
* `Value.Edited.shares`: the documents have in common what stands apart from the path.
-/

namespace ServiceContract

/-! ### Values -/

/-- The keys along which a reference leads down from the root; none for a reference to another
document. -/
def pointerPath? (ref : String) : Option (List String) :=
  match ref.toList with
  | '#' :: '/' :: pointer =>
    some ((Text.splitAt '/' pointer).map fun segment => String.ofList (unescapeSegment segment))
  | _ => none

namespace Value

/-- The values are the same but for what stands at the end of a path of keys. -/
inductive Edited : List String → Value → Value → Prop
  | here (w w' : Value) : Edited [] w w'
  | inside {key : String} {keys : List String} {before after : List (Scalar × Value)} {w w' : Value}
    (h : Edited keys w w') :
    Edited (key :: keys) (.map (before ++ (.text key, w) :: after))
      (.map (before ++ (.text key, w') :: after))

/-- The entries with another value at a key, if there is an entry with it. -/
def replaceIn? (replace : Value → Option Value) (key : String) :
    List (Scalar × Value) → Option (List (Scalar × Value))
  | [] => none
  | e :: es =>
    if e.1 = .text key then (replace e.2).map fun w => (e.1, w) :: es
    else (replaceIn? replace key es).map (e :: ·)

/-- The value with another one at the end of a path of keys, if there is such a path. -/
def replace? (new : Value) : List String → Value → Option Value
  | [], _ => some new
  | key :: keys, .map es => (replaceIn? (replace? new keys) key es).map .map
  | _, _ => none

/-- The way to the end of a path of keys, read up to the root. -/
def wayOf (keys : List String) : List Step :=
  (keys.map fun key => .key (.text key)).reverse

/-- The texts at keys `$ref` in a value, with the ways to them. -/
def references (v : Value) : List (List Step × String) :=
  (Document.ofValue v).root.subnodes.filterMap fun
    | .leaf (.path (.key (.text "$ref") :: steps)) (.text ref) =>
        some (.key (.text "$ref") :: steps, ref)
    | _ => none

/-- Outside of the value at the end of a path no reference leads to a place on the path, or beyond
its end. -/
def Unreferenced (v : Value) (keys : List String) : Prop :=
  ∀ e ∈ v.references, ¬ wayOf keys <:+ e.1 → ∀ path ∈ pointerPath? e.2, ¬ path <+: keys ∧
    ¬ keys <+: path

instance (v : Value) (keys : List String) : Decidable (v.Unreferenced keys) :=
  inferInstanceAs (Decidable (∀ e ∈ v.references, ¬ wayOf keys <:+ e.1 → ∀ path ∈ pointerPath? e.2,
    ¬ path <+: keys ∧ ¬ keys <+: path))

/-- The place is neither on the path nor at its end or beyond. -/
def Apart (keys : List String) (steps : List Step) : Prop :=
  ¬ steps <:+ wayOf keys ∧ ¬ wayOf keys <:+ steps

/-- What the documents of two values have in common: what stands apart from a path, and what stands
nowhere. -/
inductive Common (keys : List String) (v v' : Value) : Node → Prop
  | blank {n : Node} (h : n.IsBlank) : Common keys v v' n
  | key (a : Address) (k : Scalar) : Common keys v v' (.leaf (Address.ofKey k a) k)
  | apart {steps : List Step} {w : Value} (h : v.At steps w) (h' : v'.At steps w)
    (hapart : Apart keys steps) : Common keys v v' (.ofValue steps w)

variable {v v' w w' : Value} {keys : List String} {steps : List Step} {n m : Node}

/-! ### Replacements -/

theorem replaceIn?_eq_some {replace : Value → Option Value} {key : String}
    {es es' : List (Scalar × Value)} (h : replaceIn? replace key es = some es') :
    ∃ before w w' after, es = before ++ (.text key, w) :: after ∧
      es' = before ++ (.text key, w') :: after ∧ replace w = some w' := by
  induction es generalizing es' with
  | nil => cases h
  | cons e es ih =>
    rw [replaceIn?] at h
    split_ifs at h with hkey
    · obtain ⟨w', hw', rfl⟩ := Option.map_eq_some_iff.mp h
      exact ⟨[], e.2, w', es, by rw [← hkey]; rfl, by rw [hkey]; rfl, hw'⟩
    · obtain ⟨es'', hes, rfl⟩ := Option.map_eq_some_iff.mp h
      obtain ⟨before, w, w', after, rfl, rfl, hw'⟩ := ih hes
      exact ⟨e :: before, w, w', after, rfl, rfl, hw'⟩

theorem edited_of_replace? {new : Value} (h : replace? new keys v = some v') :
    Edited keys v v' := by
  induction keys generalizing v v' with
  | nil =>
    cases h
    exact .here v new
  | cons key keys ih =>
    cases v with
    | map es =>
      obtain ⟨es', hes, rfl⟩ := Option.map_eq_some_iff.mp h
      obtain ⟨before, w, w', after, rfl, rfl, hw⟩ := replaceIn?_eq_some hes
      exact .inside (ih hw)
    | _ => cases h

/-! ### Places -/

theorem wayOf_append (keys keys' : List String) :
    wayOf (keys ++ keys') = wayOf keys' ++ wayOf keys := by
  rw [wayOf, wayOf, wayOf, List.map_append, List.reverse_append]

/-- What a place that is apart holds is apart too. -/
theorem Apart.cons (h : Apart keys steps) (step : Step) : Apart keys (step :: steps) := by
  refine ⟨fun hsuffix => h.1 ((List.suffix_cons step steps).trans hsuffix), fun hsuffix => ?_⟩
  rcases List.suffix_cons_iff.mp hsuffix with heq | hsuffix
  · exact h.1 (heq ▸ List.suffix_cons step steps)
  · exact h.2 hsuffix

/-- Where a way leaves the path it is apart. -/
theorem apart_of_ne {taken rest : List String} {key : String} {k : Scalar} (hk : k ≠ .text key) :
    Apart (taken ++ key :: rest) (.key k :: wayOf taken) := by
  have hway : .key (.text key) :: wayOf taken <:+ wayOf (taken ++ key :: rest) := by
    refine ⟨wayOf rest, ?_⟩
    rw [wayOf_append, List.append_cons]
    exact congrArg (· ++ wayOf taken) (wayOf_append [key] rest).symm
  have hne : ¬ .key k :: wayOf taken <:+ .key (.text key) :: wayOf taken := fun h =>
    hk (Step.key.inj (List.cons.inj (h.eq_of_length rfl)).1)
  have hne' : ¬ .key (.text key) :: wayOf taken <:+ .key k :: wayOf taken := fun h =>
    hk (Step.key.inj (List.cons.inj (h.eq_of_length rfl)).1).symm
  exact ⟨fun h => hne (List.suffix_of_suffix_length_le h hway (Nat.le_refl _)), fun h =>
    hne' (hway.trans h)⟩

end Value

/-! ### Parts -/

namespace Value

variable {v v' w w' : Value} {keys : List String} {steps : List Step} {n m : Node}

/-- A value in another one is a part of its document. -/
theorem At.part (h : v.At steps w) : (Document.ofValue v).Part (.ofValue steps w) := by
  induction h with
  | root => exact .root
  | @item steps items i w _ hw ih =>
    have hitem := Node.getElem?_ofItems steps 0 items i
    rw [hw, Nat.zero_add] at hitem
    exact Node.opened_ofValue _ w ▸ ih.item (List.mem_of_getElem? hitem)
  | @entry steps es k w _ hw ih =>
    rw [Node.ofValue, Node.ofEntries_eq_map] at ih
    exact Node.opened_ofValue _ w ▸ ih.entry (List.mem_map_of_mem hw)

theorem mem_references {ref : String}
    (h : v.At (.key (.text "$ref") :: steps) (.scalar (.text ref))) :
    (.key (.text "$ref") :: steps, ref) ∈ v.references := by
  refine List.mem_filterMap.mpr
    ⟨.ofValue (.key (.text "$ref") :: steps) (.scalar (.text ref)), ?_, rfl⟩
  rcases ((Document.isTree_ofValue v).bounds h.part).mem with hmem | hblank | ⟨a, k, heq⟩
  · exact hmem
  · cases Document.address_of_isBlank hblank
  · cases a <;> cases heq

namespace Common

variable (hn : Common keys v v' n)
include hn

theorem part : (Document.ofValue v).Part n := by
  cases hn with
  | blank h => exact .blank h
  | key a k => exact .key a k
  | apart h => exact h.part

theorem symm : Common keys v' v n := by
  cases hn with
  | blank h => exact .blank h
  | key a k => exact .key a k
  | apart h h' hapart => exact .apart h' h hapart

end Common

/-- What a node in common holds is in common too. -/
theorem common_downward (keys : List String) (v v' : Value) : Node.Downward (Common keys v v') where
  blank := .blank
  key := .key
  item {a ns n} h hn := by
    generalize hlist : Node.list a ns = m at h
    cases h with
    | blank h => rcases h with h | h | ⟨c, h⟩ <;> cases hlist.trans h
    | key => cases hlist
    | @apart steps w h h' hapart =>
      cases w with
      | list items =>
        cases hlist
        obtain ⟨j, w, hw, rfl⟩ := Node.mem_ofItems hn
        rw [Nat.zero_add, Node.opened_ofValue]
        exact .apart (h.item hw) (h'.item hw) (hapart.cons _)
      | _ => cases hlist
  entry {a es e} h he := by
    generalize hmap : Node.map a es = m at h
    cases h with
    | blank h =>
      rcases h with h | h | ⟨c, h⟩
      · cases hmap.trans h
      · cases hmap.trans h
        cases he
      · cases hmap.trans h
    | key => cases hmap
    | @apart steps w h h' hapart =>
      cases w with
      | map entries =>
        cases hmap
        rw [Node.ofEntries_eq_map] at he
        obtain ⟨⟨k, w⟩, hw, rfl⟩ := List.mem_map.mp he
        rw [Node.opened_ofValue]
        exact .apart (h.entry hw) (h'.entry hw) (hapart.cons _)
      | _ => cases hmap

/-! ### References -/

/-- A reference that a node in common is does not meet the path. -/
theorem Unreferenced.of_common (h : v.Unreferenced keys) (hn : Common keys v v' n) {value : Node}
    {ref : String} (hget : n.get "$ref" = .ok value) (htext : value.asText = .ok ref) :
    ∀ path ∈ pointerPath? ref, ¬ path <+: keys ∧ ¬ keys <+: path := by
  cases hn with
  | blank hblank =>
    rcases hblank with rfl | rfl | ⟨c, rfl⟩
    · cases hget
    · cases hget
      cases htext
    · cases hget
  | key a k => cases hget
  | @apart steps w hat hat' hapart =>
    cases w with
    | map es =>
      obtain ⟨found, hfound, hget⟩ := except_bind_eq_ok.mp hget
      rw [Node.get?_ofValue_map] at hfound
      cases hfound
      cases hget
      cases hfind : es.find? fun e => e.1 == .text "$ref" with
      | none =>
        rw [hfind] at htext
        cases htext
      | some e =>
        rw [hfind] at htext
        obtain ⟨k, w⟩ := e
        obtain rfl : k = .text "$ref" := by simpa using List.find?_some hfind
        have hentry := hat.entry (List.mem_of_find?_eq_some hfind)
        obtain rfl : w = .scalar (.text ref) := by
          rcases w with (_ | _ | _ | _ | text) | _ | _ | _ <;> cases htext
          rfl
        exact h _ (mem_references hentry) (hapart.cons _).2
    | _ => cases hget

/-- At another key than the next one of the path the same stands in both values, and it is in
common. -/
theorem get?_of_ne (taken keys : List String) {key key' : String}
    {before after : List (Scalar × Value)}
    (hat : v.At (wayOf taken) (.map (before ++ (.text key, w) :: after)))
    (hat' : v'.At (wayOf taken) (.map (before ++ (.text key, w') :: after))) (hne : key' ≠ key) :
    (Node.ofValue (wayOf taken) (.map (before ++ (.text key, w) :: after))).get? key' =
        (Node.ofValue (wayOf taken) (.map (before ++ (.text key, w') :: after))).get? key' ∧
      ∀ m, (Node.ofValue (wayOf taken) (.map (before ++ (.text key, w) :: after))).get? key' =
        .ok (some m) →
        Common (taken ++ key :: keys) v v' m := by
  rw [Node.get?_ofValue_map, Node.get?_ofValue_map, find?_entry_of_ne hne, find?_entry_of_ne hne]
  refine ⟨rfl, fun m hm => ?_⟩
  obtain ⟨⟨k, u⟩, hfind, rfl⟩ := Option.map_eq_some_iff.mp (Except.ok.inj hm)
  obtain rfl : k = .text key' := by simpa using List.find?_some hfind
  have hmem (w : Value) : (Scalar.text key', u) ∈ before ++ (.text key, w) :: after := by
    have hsub := List.Sublist.append_left (List.sublist_cons_self (Scalar.text key, w) after) before
    exact hsub.mem (List.mem_of_find?_eq_some hfind)
  exact .apart (hat.entry (hmem w)) (hat'.entry (hmem w'))
    (apart_of_ne fun heq => hne (Scalar.text.inj heq))

namespace Edited

/-- Along keys that neither end on the path nor follow it to its end, the way down is the same in
both documents, and leads to what they have in common. -/
theorem walk {rest : List String} (h : Edited rest w w') (hw : w.isKeyed = true)
    (taken : List String) (hat : v.At (wayOf taken) w) (hat' : v'.At (wayOf taken) w')
    (ref : String) {segments : List (List Char)} {path : List String}
    (hpath : segments.map (fun segment => String.ofList (unescapeSegment segment)) = path)
    (hclear : ¬ path <+: rest ∧ ¬ rest <+: path) :
    Document.walk ref (.ofValue (wayOf taken) w) segments =
        Document.walk ref (.ofValue (wayOf taken) w') segments ∧
      ∀ m, Document.walk ref (.ofValue (wayOf taken) w) segments = .ok m →
        Common (taken ++ rest) v v' m := by
  induction h generalizing taken segments path with
  | here => exact absurd List.nil_prefix hclear.2
  | @inside key keys before after w w' h ih =>
    subst hpath
    cases segments with
    | nil => exact absurd List.nil_prefix hclear.1
    | cons segment segments =>
      obtain ⟨hbefore, hinner⟩ := isKeyed_entry hw
      rw [List.map_cons, List.cons_prefix_cons, List.cons_prefix_cons] at hclear
      rw [Document.walk, Document.walk]
      generalize String.ofList (unescapeSegment segment) = key' at hclear ⊢
      have henter (w : Value) :
          (Node.ofValue (wayOf taken) (.map (before ++ (.text key, w) :: after))).enter? key' =
          (Node.ofValue (wayOf taken) (.map (before ++ (.text key, w) :: after))).get? key' := rfl
      rw [henter, henter]
      by_cases hkey : key' = key
      · subst hkey
        rw [Node.get?_ofValue_entry hbefore, Node.get?_ofValue_entry hbefore]
        simp only [true_and] at hclear
        have hmem (w : Value) : (Scalar.text key', w) ∈ before ++ (.text key', w) :: after :=
          List.mem_append_right before List.mem_cons_self
        have hway : Step.key (.text key') :: wayOf taken = wayOf (taken ++ [key']) := by
          rw [wayOf_append]
          rfl
        have hnext :=
          ih hinner _ (hway ▸ hat.entry (hmem w)) (hway ▸ hat'.entry (hmem w')) rfl hclear
        rwa [← hway, ← List.append_cons] at hnext
      · obtain ⟨hsame, hcommon⟩ := get?_of_ne taken keys hat hat' hkey
        rw [← hsame]
        refine ⟨rfl, fun m hm => ?_⟩
        obtain ⟨found, hfound, hm⟩ := except_bind_eq_ok.mp hm
        cases found with
        | none => cases hm
        | some child => exact (common_downward _ v v').walk (hcommon child hfound) hm

variable (h : Edited keys v v') (hv : v.isKeyed = true)
include h hv

/-- A reference that does not meet the path leads to the same in both documents, which they have in
common. -/
theorem resolve {ref : String}
    (hclear : ∀ path ∈ pointerPath? ref, ¬ path <+: keys ∧ ¬ keys <+: path) :
    (Document.ofValue v).resolve ref = (Document.ofValue v').resolve ref ∧
      ∀ m, (Document.ofValue v).resolve ref = .ok m → Common keys v v' m := by
  unfold pointerPath? at hclear
  unfold Document.resolve
  split
  · rename_i pointer heq
    rw [heq] at hclear
    obtain ⟨hsame, hcommon⟩ := h.walk hv [] .root .root ref rfl (hclear _ rfl)
    refine ⟨congrArg (· >>= _) hsame, fun m hm => ?_⟩
    obtain ⟨target, htarget, hm⟩ := except_bind_eq_ok.mp hm
    split at hm
    · cases hm
      exact hcommon _ htarget
    · cases hm
  · exact ⟨rfl, fun m hm => by cases hm⟩

/-- If no reference from outside meets the path, the documents have in common what stands apart from
it. -/
theorem shares (hclear : v.Unreferenced keys) :
    Document.Shares (Common keys v v') (.ofValue v) (.ofValue v') where
  tree := Document.isTree_ofValue v
  tree' := Document.isTree_ofValue v'
  part := Common.part
  part' hn := hn.symm.part
  closed :=
    { toDownward := common_downward keys v v'
      refer := fun hn hget htext hm => (h.resolve hv (hclear.of_common hn hget htext)).2 _ hm }
  resolve hn hget htext := (h.resolve hv (hclear.of_common hn hget htext)).1

end Edited

end Value

end ServiceContract
