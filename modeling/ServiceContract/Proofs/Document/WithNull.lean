import ServiceContract.Document.Reference
import ServiceContract.Proofs.Session.Corresponds

/-!
# Documents whose schemas allow null

A schema states its type by a text, or by a list of the type and null. In a document a set of
schemas may have the type that they state replaced by such a list. Every other entry of a node is
what it was before, but for such schemas inside. A reference leads to the node that it led to, but
for such schemas inside; if it led nowhere, it still does not lead to any map.

## Main definitions

* `Node.orNull`: a stated type as a list of it and null.
* `Node.withNull`, `Document.withNull`: a node or a document in which a set of schemas allows null.
* `Node.StatedAs`: a stated type before and after.

## Main results

* `Node.get_withNull`, `Node.items_withNull`, `Node.entries_withNull`: what is read from a node.
* `Document.resolve_withNull`: what a reference leads to.
-/

namespace ServiceContract

/-- The address of an item of a list, given the address of the list. -/
def Address.item (i : Nat) : Address → Address
  | .path steps => .path (.index i :: steps)
  | _ => .nowhere

namespace Node

/-- A stated type as a list of it and null. The type null stays, and so does what is no text. -/
def orNull : Node → Node
  | .leaf a (.text t) =>
    if t = "null" then .leaf a (.text t)
    else .list a [.leaf (a.item 0) (.text t), .leaf (a.item 1) (.text "null")]
  | n => n

mutual

/-- The node in which the schemas at the given addresses state their types as lists with null. -/
def withNull (S : Address → Bool) : Node → Node
  | .leaf a s => .leaf a s
  | .list a items => .list a (withNullItems S items)
  | .map a entries => .map a (withNullEntries S (S a) entries)
  | .link a rings => .link a (withNullRings S rings)

/-- The items of a list. -/
def withNullItems (S : Address → Bool) : List Node → List Node
  | [] => []
  | n :: ns => withNull S n :: withNullItems S ns

/-- The entries of a map, which is one of the schemas or not. -/
def withNullEntries (S : Address → Bool) (here : Bool) : List (Scalar × Node) → List (Scalar × Node)
  | [] => []
  | (k, n) :: es =>
    (k, if here && k == .text "type" then (withNull S n).orNull else withNull S n) ::
      withNullEntries S here es

/-- The rings of a link. -/
def withNullRings (S : Address → Bool) : List (Address × Node) → List (Address × Node)
  | [] => []
  | (a, n) :: rings => (a, withNull S n) :: withNullRings S rings

end

variable {S : Address → Bool}

/-! ### Links -/

theorem orNull_text (a : Address) {t : String} (h : t ≠ "null") :
    orNull (.leaf a (.text t)) =
      .list a [.leaf (a.item 0) (.text t), .leaf (a.item 1) (.text "null")] := by
  rw [orNull, if_neg h]

theorem tie_orNull (rings : List (Address × Node)) (n : Node) :
    n.orNull.tie rings = (n.tie rings).orNull := by
  cases n with
  | leaf a v =>
    cases v with
    | text t =>
      by_cases h : t = "null"
      · subst h
        rfl
      · rw [tie, orNull_text a h]
        rfl
    | _ => rfl
  | _ => rfl

mutual

theorem withNull_tie (rings : List (Address × Node)) : (n : Node) →
    (n.tie rings).withNull S = (n.withNull S).tie (withNullRings S rings)
  | .leaf a v => by rw [tie, withNull, tie]
  | .list a items => by rw [tie, withNull, withNull, tie, withNullItems_tie]
  | .map a entries => by rw [tie, withNull, withNull, tie, withNullEntries_tie]
  | .link a rings' => by rw [tie, withNull, withNull, tie]

theorem withNullItems_tie (rings : List (Address × Node)) : (ns : List Node) →
    withNullItems S (tieItems rings ns) = tieItems (withNullRings S rings) (withNullItems S ns)
  | [] => rfl
  | n :: ns => by
    rw [tieItems, withNullItems, withNullItems, tieItems, withNull_tie, withNullItems_tie]

theorem withNullEntries_tie (rings : List (Address × Node)) (here : Bool) :
    (es : List (Scalar × Node)) →
    withNullEntries S here (tieEntries rings es) =
      tieEntries (withNullRings S rings) (withNullEntries S here es)
  | [] => rfl
  | (k, n) :: es => by
    rw [tieEntries, withNullEntries, withNullEntries, tieEntries, withNull_tie, withNullEntries_tie]
    split_ifs
    · rw [tie_orNull]
    · rfl

end

theorem lookup_withNullRings (a : Address) (rings : List (Address × Node)) :
    (withNullRings S rings).lookup a = (rings.lookup a).map (withNull S) := by
  induction rings with
  | nil => rfl
  | cons e rings ih =>
    obtain ⟨b, n⟩ := e
    rw [withNullRings, List.lookup_cons, List.lookup_cons, ih]
    cases a == b <;> rfl

theorem opened_withNull (n : Node) : (n.withNull S).opened = n.opened.withNull S := by
  cases n with
  | link a rings =>
    rw [withNull, opened, opened, withNull_tie, lookup_withNullRings]
    cases rings.lookup a <;> rfl
  | _ => rfl

theorem address_withNull (n : Node) : (n.withNull S).address = n.address := by
  cases n <;> rfl

/-! ### What a node is -/

theorem isNull_withNull (n : Node) : (n.withNull S).isNull = n.isNull := by
  cases n <;> rfl

theorem isText_withNull (text : String) (n : Node) :
    (n.withNull S).isText text = n.isText text := by
  cases n <;> rfl

theorem isList_withNull (n : Node) : (n.withNull S).isList = n.isList := by
  cases n <;> rfl

theorem isKeyLike_withNull (n : Node) : (n.withNull S).isKeyLike = n.isKeyLike := by
  cases n <;> rfl

theorem asText_withNull (n : Node) : (n.withNull S).asText = n.asText := by
  cases n <;> rfl

theorem asScalar_withNull (n : Node) : (n.withNull S).asScalar = n.asScalar := by
  cases n <;> rfl

theorem withNullItems_eq_map (ns : List Node) : withNullItems S ns = ns.map (withNull S) := by
  induction ns with
  | nil => rfl
  | cons n ns ih => rw [withNullItems, ih, List.map_cons]

theorem isTruthy_withNull (n : Node) : (n.withNull S).isTruthy = n.isTruthy := by
  cases n with
  | list a items =>
    rw [withNull, withNullItems_eq_map]
    cases items <;> rfl
  | map a entries =>
    cases entries <;> rfl
  | _ => rfl

theorem trimmedText_withNull (n : Node) : (n.withNull S).trimmedText = n.trimmedText := by
  rw [trimmedText, trimmedText, isTruthy_withNull, asText_withNull]

theorem orEmpty_withNull (n : Node) : (n.withNull S).orEmpty = n.orEmpty.withNull S := by
  rw [orEmpty, orEmpty, isTruthy_withNull]
  split_ifs <;> rfl

/-! ### What a node has -/

/-- A node as it stands where a type is stated, before and after. -/
inductive StatedAs (S : Address → Bool) : Node → Node → Prop
  | same (n : Node) : StatedAs S n (n.withNull S)
  | list (a b b' b'' : Address) {t : String} (h : t ≠ "null") :
    StatedAs S (.leaf a (.text t)) (.list b [.leaf b' (.text t), .leaf b'' (.text "null")])

theorem statedAs_orNull (n : Node) : StatedAs S n.opened (n.withNull S).orNull.opened := by
  cases n with
  | leaf a v =>
    cases v with
    | text t =>
      by_cases h : t = "null"
      · subst h
        exact .same _
      · rw [withNull, orNull_text a h]
        exact .list a a _ _ h
    | _ => exact .same _
  | link a rings =>
    change StatedAs S _ ((link a rings).withNull S).opened
    rw [opened_withNull]
    exact .same _
  | _ => exact .same _

variable {key : String} {here : Bool} {a : Address} {es : List (Scalar × Node)}

theorem lookup?_withNull_of_ne (h : key ≠ "type" ∨ here = false) :
    lookup? key (withNullEntries S here es) = (lookup? key es).map (withNull S) := by
  induction es with
  | nil => rfl
  | cons e es ih =>
    obtain ⟨k, n⟩ := e
    rw [withNullEntries, lookup?, lookup?, List.find?_cons, List.find?_cons]
    by_cases hk : k = .text key
    · subst hk
      have hother : (here && (Scalar.text key == .text "type")) = false := by
        rcases h with h | rfl
        · simp [h]
        · rfl
      simp [hother, opened_withNull]
    · have hk : (k == Scalar.text key) = false := by simpa using hk
      simp only [hk]
      exact ih

/-- Whatever is looked up stands as a stated type does. -/
theorem lookup?_withNull (key : String) (here : Bool) (es : List (Scalar × Node)) :
    Option.Rel (StatedAs S) (lookup? key es) (lookup? key (withNullEntries S here es)) := by
  induction es with
  | nil => exact .none
  | cons e es ih =>
    obtain ⟨k, n⟩ := e
    rw [withNullEntries, lookup?, lookup?, List.find?_cons, List.find?_cons]
    cases hk : k == Scalar.text key with
    | true =>
      refine .some ?_
      dsimp only
      split_ifs
      · exact statedAs_orNull n
      · rw [opened_withNull]
        exact .same _
    | false => exact ih

theorem isSome_lookup?_withNull (key : String) (here : Bool) (es : List (Scalar × Node)) :
    (lookup? key (withNullEntries S here es)).isSome = (lookup? key es).isSome := by
  have h := lookup?_withNull (S := S) key here es
  revert h
  generalize lookup? key es = found
  generalize lookup? key (withNullEntries S here es) = found'
  rintro (_ | _) <;> rfl

theorem has_withNull (key : String) (n : Node) : (n.withNull S).has key = n.has key := by
  cases n with
  | list a items =>
    rw [withNull, withNullItems_eq_map, has, has, List.any_map]
    simp only [Function.comp_def, isText_withNull]
  | map a es =>
    rw [withNull, has, has, isSome_lookup?_withNull]
  | leaf a v => rfl
  | link a rings => rfl

theorem hasAny_withNull (keys : List String) (n : Node) :
    (n.withNull S).hasAny keys = n.hasAny keys := by
  induction keys with
  | nil => rfl
  | cons key keys ih => rw [hasAny, hasAny, has_withNull, ih]

theorem get?_withNull (h : key ≠ "type") (n : Node) :
    (n.withNull S).get? key = (n.get? key).map (Option.map (withNull S)) := by
  cases n with
  | map a es =>
    rw [withNull, get?, get?, lookup?_withNull_of_ne (.inl h)]
    rfl
  | _ => rfl

/-- What stands at any key but that of the type. -/
theorem get_withNull (h : key ≠ "type") (n : Node) :
    (n.withNull S).get key = (n.get key).map (withNull S) := by
  rw [get, get, get?_withNull h]
  cases n.get? key with
  | error fault => rfl
  | ok found => cases found <;> rfl

/-- What stands at the key of the type. -/
theorem get_type_withNull (n : Node) :
    Corresponds (StatedAs S) (n.get "type") ((n.withNull S).get "type") := by
  cases n with
  | map a es =>
    change Corresponds (StatedAs S) (.ok ((lookup? "type" es).getD null))
      (.ok ((lookup? "type" (withNullEntries S (S a) es)).getD null))
    have h := lookup?_withNull (S := S) "type" (S a) es
    revert h
    generalize lookup? "type" es = found
    generalize lookup? "type" (withNullEntries S (S a) es) = found'
    rintro (h | _)
    · exact .ok h
    · exact .ok (.same _)
  | _ => exact .fault _

theorem items_withNull (n : Node) : (n.withNull S).items = n.items.map (List.map (withNull S)) := by
  cases n with
  | leaf a v =>
    cases v with
    | text t => simp [items, withNull, Except.map, Function.comp_def]
    | _ => rfl
  | list a ns =>
    simp [items, withNull, withNullItems_eq_map, Except.map, Function.comp_def, opened_withNull]
  | map a es =>
    have hkeys (here : Bool) : (withNullEntries S here es).map Prod.fst = es.map Prod.fst := by
      induction es with
      | nil => rfl
      | cons e es ih => rw [withNullEntries, List.map_cons, List.map_cons, ih]
    have hitems (es : List (Scalar × Node)) : (map a es).items =
        .ok ((es.map Prod.fst).map fun k => .leaf (a.ofKey k) k) := by
      simp [items, Function.comp_def]
    rw [withNull, hitems, hitems, hkeys]
    simp [Except.map, withNull, Function.comp_def]
  | link a rings => rfl

theorem itemsIfAny_withNull (n : Node) :
    (n.withNull S).itemsIfAny = n.itemsIfAny.map (List.map (withNull S)) := by
  rw [itemsIfAny, itemsIfAny, isTruthy_withNull]
  split_ifs
  · exact items_withNull n
  · rfl

/-- The entries of a map that is not one of the schemas. -/
theorem entries_withNull {n : Node} (h : S n.address = false) :
    (n.withNull S).entries = n.entries.map (List.map fun e => (e.1, e.2.withNull S)) := by
  cases n with
  | map a es =>
    have hentries : withNullEntries S false es = es.map fun e => (e.1, e.2.withNull S) := by
      clear h
      induction es with
      | nil => rfl
      | cons e es ih =>
        rw [withNullEntries, ih]
        rfl
    rw [withNull, show S a = false from h, hentries]
    simp [entries, Except.map, Function.comp_def, opened_withNull]
  | _ => rfl

end Node

/-! ### References -/

namespace Document

open Node

/-- The document in which the schemas at the given addresses allow null, with a size for it. -/
def withNull (S : Address → Bool) (size : Nat) (doc : Document) : Document :=
  { root := doc.root.withNull S, size }

variable {S : Address → Bool} {ref : String}

/-- The end of a pointer, which has to be a map. -/
def walkToMap (ref : String) (n : Node) (segments : List (List Char)) : Except Fault Node := do
  let target ← walk ref n segments
  match target with
  | .map _ _ => return target
  | _ => throw (.unresolvable ref "target is not an object")

theorem resolve_eq_walkToMap (doc : Document) (ref : String) :
    doc.resolve ref =
      match ref.toList with
      | '#' :: '/' :: pointer => walkToMap ref doc.root (Text.splitAt '/' pointer)
      | _ => .error (.unresolvable ref "only local references are supported") :=
  rfl

theorem walkToMap_cons (ref : String) (n : Node) (segment : List Char)
    (segments : List (List Char)) :
    walkToMap ref n (segment :: segments) =
      n.enter? (String.ofList (unescapeSegment segment)) >>= fun
        | some child => walkToMap ref child segments
        | none => .error (.unresolvable ref
            ("no " ++ Text.quoted (String.ofList (unescapeSegment segment)) ++
              " in document")) := by
  rw [walkToMap, walk, bind_assoc]
  refine bind_congr fun found => ?_
  cases found <;> rfl

/-- What a step of a pointer leads to stands as a stated type does. -/
theorem enter?_withNull (n : Node) (key : String) :
    Corresponds (Option.Rel (StatedAs S)) (n.enter? key) ((n.withNull S).enter? key) := by
  cases n with
  | map a es => exact .ok (lookup?_withNull key (S a) es)
  | list a ns =>
    refine .bind_right fun position _ => .ok ?_
    rw [withNullItems_eq_map]
    cases position with
    | none => exact .none
    | some i =>
      dsimp only [Option.bind_some]
      rw [List.getElem?_map]
      cases ns[i]? with
      | none => exact .none
      | some n =>
        refine .some ?_
        rw [opened_withNull]
        exact .same _
  | _ => exact .ok .none

/-- No pointer leads from a scalar to a map. -/
theorem walkToMap_leaf (ref : String) (a : Address) (v : Scalar) (segments : List (List Char)) :
    ∃ reason, walkToMap ref (.leaf a v) segments = .error (.unresolvable ref reason) := by
  cases segments with
  | nil => exact ⟨_, rfl⟩
  | cons segment segments => exact ⟨_, walkToMap_cons ref _ segment segments⟩

/-- No pointer leads from a list of scalars to a map. -/
theorem walkToMap_list (ref : String) {a : Address} {ns : List Node}
    (hns : ∀ n ∈ ns, ∃ b v, n = .leaf b v) (segments : List (List Char)) :
    walkToMap ref (.list a ns) segments = .error .malformed ∨
      ∃ reason, walkToMap ref (.list a ns) segments = .error (.unresolvable ref reason) := by
  cases segments with
  | nil => exact .inr ⟨_, rfl⟩
  | cons segment segments =>
    rw [walkToMap_cons, enter?]
    cases hposition : position? (String.ofList (unescapeSegment segment)) with
    | error fault =>
      refine .inl ?_
      unfold position? at hposition
      split_ifs at hposition
      · cases hposition
        rfl
      · split at hposition <;> cases hposition
        rfl
    | ok position =>
      cases position with
      | none => exact .inr ⟨_, rfl⟩
      | some i =>
        dsimp only [except_ok_bind, Option.bind_some]
        cases hitem : ns[i]? with
        | none => exact .inr ⟨_, rfl⟩
        | some n =>
          obtain ⟨b, v, rfl⟩ := hns n (List.mem_of_getElem? hitem)
          exact .inr (walkToMap_leaf ref b v segments)

/-- From where a type is stated, pointers lead to the same maps, or for some reason to none. -/
theorem walkToMap_of_statedAs {n n' : Node} (h : StatedAs S n n') (segments : List (List Char))
    (hreadable : walkToMap ref n' segments = .error .malformed → walkToMap ref n segments =
      .error .malformed) :
    Corresponds (fun m m' => m' = m.withNull S) (walkToMap ref n segments)
      (walkToMap ref n' segments) := by
  induction segments generalizing n n' with
  | nil =>
    cases h with
    | same =>
      cases n with
      | map a es => exact .ok rfl
      | _ => exact .fault _
    | list => exact .fault _
  | cons segment segments ih =>
    cases h with
    | same =>
      rw [walkToMap_cons, walkToMap_cons] at hreadable ⊢
      have henter := enter?_withNull (S := S) n (String.ofList (unescapeSegment segment))
      revert henter hreadable
      generalize n.enter? (String.ofList (unescapeSegment segment)) = found
      generalize (n.withNull S).enter? (String.ofList (unescapeSegment segment)) = found'
      intro hreadable henter
      cases henter with
      | error hclass => exact .error hclass
      | ok hchild =>
        cases hchild with
        | none => exact .fault _
        | some hchild => exact ih hchild hreadable
    | @list a b b' b'' t ht =>
      -- A text has no parts, and those of the list are no maps.
      obtain ⟨reason, hleaf⟩ := walkToMap_leaf ref a (.text t) (segment :: segments)
      have hleaves : ∀ n ∈ [leaf b' (.text t), leaf b'' (.text "null")], ∃ c v, n = .leaf c v := by
        intro n hn
        rcases List.mem_pair.mp hn with rfl | rfl <;> exact ⟨_, _, rfl⟩
      rw [hleaf] at hreadable ⊢
      rcases walkToMap_list ref (a := b) hleaves (segment :: segments) with hlist | ⟨reason', hlist⟩
      · cases hreadable hlist
      · rw [hlist]
        exact .error (.unresolvable ref _ _ none)

/-- A reference leads to the same map, or for some reason to none, unless it gets a part that cannot
be read. -/
theorem resolve_withNull (doc : Document) (size : Nat)
    (hreadable : (doc.withNull S size).resolve ref = .error .malformed →
      doc.resolve ref = .error .malformed) :
    Corresponds (fun m m' => m' = m.withNull S) (doc.resolve ref)
      ((doc.withNull S size).resolve ref) := by
  rw [resolve_eq_walkToMap, resolve_eq_walkToMap] at hreadable ⊢
  split at hreadable
  · exact walkToMap_of_statedAs (.same doc.root) _ hreadable
  · exact .fault _

end Document

end ServiceContract
