import ServiceContract.Proofs.Document.Reference
import ServiceContract.Proofs.Session.Start

/-!
# References to components

A reference to a component is the pointer to the components with one more segment. If it leads
anywhere, the segment stands for a key of the components, and this key has got a type name at the
start.

## Main definitions

* `componentReference`: the reference to the component with the key that a segment stands for.

## Main results

* `referenceName_componentReference`: its last key.
* `Session.component_of_resolve`: the component that it leads to has a name.
-/

namespace ServiceContract

open Build

/-! ### Segments -/

/-- The reference to the component with the key that a segment stands for. -/
def componentReference (segment : List Char) : String :=
  String.ofList (componentPointer ++ segment)

variable {segment : List Char}

theorem toList_componentReference (segment : List Char) :
    (componentReference segment).toList =
      '#' :: '/' :: ("components".toList ++ '/' :: ("schemas".toList ++ '/' :: segment)) := by
  rw [componentReference, String.toList_ofList]
  rfl

/-- Behind its mark, the reference has three segments. -/
theorem splitAt_componentReference (h : '/' ∉ segment) :
    Text.splitAt '/' ("components".toList ++ '/' :: ("schemas".toList ++ '/' :: segment)) =
      ["components".toList, "schemas".toList, segment] := by
  rw [Text.splitAt_append_cons (by decide), Text.splitAt_append_cons (by decide),
    Text.splitAt_of_notMem h]

/-- The last key of a reference to a component is the key of the component. -/
theorem referenceName_componentReference (h : '/' ∉ segment) :
    referenceName (componentReference segment) = String.ofList (unescapeSegment segment) := by
  have hsplit : Text.splitAt '/' (componentReference segment).toList =
      ["#".toList, "components".toList, "schemas".toList, segment] := by
    have hmark : '/' ∉ ['#'] := by decide
    rw [toList_componentReference]
    exact (Text.splitAt_append_cons hmark _).trans (congrArg _ (splitAt_componentReference h))
  rw [referenceName, hsplit]
  rfl

/-- A reference to a component has the name that the component got at the start. -/
theorem componentName?_componentReference (h : '/' ∉ segment)
    (components : List (String × String)) :
    componentName? components (componentReference segment) =
      components.lookup (String.ofList (unescapeSegment segment)) := by
  have hprefix : componentPointer.isPrefixOf (componentReference segment).toList = true := by
    rw [componentReference, String.toList_ofList]
    exact List.isPrefixOf_iff_prefix.mpr (List.prefix_append _ _)
  rw [componentName?, if_pos hprefix, referenceName_componentReference h]

/-! ### Components at the start -/

namespace Session

theorem lookup_insertComponent (key name : String) (components : List (String × String))
    (k : String) :
    (insertComponent key name components).lookup k =
      if k = key then some name else components.lookup k := by
  induction components with
  | nil => exact lookup_cons_ite k key name []
  | cons c components ih =>
    obtain ⟨key', name'⟩ := c
    rw [insertComponent]
    by_cases hkey : key' = key
    · subst hkey
      rw [if_pos rfl, lookup_cons_ite, lookup_cons_ite]
      split_ifs <;> rfl
    · rw [if_neg hkey, lookup_cons_ite, lookup_cons_ite, ih]
      by_cases hk : k = key'
      · subst hk
        simp [hkey]
      · simp [hk]

/-- Where all names are taken, the keys are texts, and each of them has a name. -/
theorem lookup_of_claimComponents {keys : List Node} {s t : Session}
    (h : claimComponents keys s = (.ok (), t)) :
    (∀ key, (s.components.lookup key).isSome → (t.components.lookup key).isSome) ∧
      ∀ n ∈ keys, ∃ key, n.asText = .ok key ∧ (t.components.lookup key).isSome := by
  induction keys generalizing s with
  | nil =>
    obtain ⟨-, rfl⟩ := pure_eq_ok.mp h
    exact ⟨fun _ => id, fun n hn => absurd hn List.not_mem_nil⟩
  | cons n keys ih =>
    obtain ⟨text, htext, h⟩ := lift_bind_eq_ok.mp h
    obtain ⟨⟨⟩, u, hclaim, h⟩ := bind_eq_ok.mp h
    obtain ⟨hkept, hkeys⟩ := ih h
    obtain ⟨name, hlookup⟩ : ∃ name, ∀ k, u.components.lookup k =
        if k = text then some name else s.components.lookup k := by
      cases hclaim
      exact ⟨_, lookup_insertComponent _ _ _⟩
    refine ⟨fun key hkey => hkept key ?_, fun m hm => ?_⟩
    · rw [hlookup]
      split_ifs
      · rfl
      · exact hkey
    · rcases List.mem_cons.mp hm with rfl | hm
      · refine ⟨text, htext, hkept text ?_⟩
        rw [hlookup, if_pos rfl]
        rfl
      · exact hkeys m hm

/-- The way that a reference to a component names, down to a map. -/
theorem enter?_of_resolve {doc : Document} {segment : List Char} (h : '/' ∉ segment) {n : Node}
    (hn : doc.resolve (componentReference segment) = .ok n) :
    ∃ components schemas, doc.root.enter? "components" = .ok (some components) ∧
      components.enter? "schemas" = .ok (some schemas) ∧
      schemas.enter? (String.ofList (unescapeSegment segment)) = .ok (some n) ∧
      ∃ a es, n = .map a es := by
  obtain ⟨pointer, hpointer, hleads, hmap⟩ := Document.resolve_eq_ok_iff.mp hn
  rw [toList_componentReference] at hpointer
  cases hpointer
  rw [splitAt_componentReference h, List.map_cons, List.map_cons, List.map_singleton] at hleads
  obtain ⟨components, hc, hleads⟩ := Node.leads_cons_iff.mp hleads
  obtain ⟨schemas, hs, hleads⟩ := Node.leads_cons_iff.mp hleads
  obtain ⟨child, hchild, hleads⟩ := Node.leads_cons_iff.mp hleads
  cases hleads
  exact ⟨components, schemas, hc, hs, hchild, hmap⟩

/-- Only a map has an entry with a key that is no position. -/
theorem eq_map_of_enter? {n m : Node} {key : String} (hkey : position? key = .ok none)
    (h : n.enter? key = .ok (some m)) : ∃ a es, n = .map a es ∧ Node.lookup? key es = some m := by
  cases n with
  | map a es => exact ⟨a, es, rfl, Except.ok.inj h⟩
  | list a items =>
    rw [Node.enter?, hkey] at h
    cases h
  | leaf a v => cases h
  | link a rings => cases h

/-- A map with an entry counts as present. -/
theorem orEmpty_of_lookup? {a : Address} {es : List (Scalar × Node)} {key : String} {m : Node}
    (h : Node.lookup? key es = some m) : (Node.map a es).orEmpty = .map a es := by
  cases es with
  | nil => cases h
  | cons e es => rfl

/-- A way down the components to a map ends at one of them. -/
theorem mem_componentNodes {doc : Document} {keys : List Node}
    (hkeys : componentNodes doc = .ok keys) (htexts : ∀ n ∈ keys, ∃ text, n.asText = .ok text)
    {key : String} {components schemas : Node} {a : Address} {es : List (Scalar × Node)}
    (hc : doc.root.enter? "components" = .ok (some components))
    (hs : components.enter? "schemas" = .ok (some schemas))
    (hn : schemas.enter? key = .ok (some (.map a es))) : ∃ n ∈ keys, n.asText = .ok key := by
  obtain ⟨b, cs, hroot, hcs⟩ := eq_map_of_enter? rfl hc
  obtain ⟨b', ss, rfl, hss⟩ := eq_map_of_enter? rfl hs
  have hitems : schemas.itemsIfAny = .ok keys := by
    have hgetc : doc.root.get "components" = .ok (.map b' ss) := by
      rw [hroot, Node.get, Node.get?, hcs]
      rfl
    have hgets : (Node.map b' ss).get "schemas" = .ok schemas := by
      rw [Node.get, Node.get?, hss]
      rfl
    rw [componentNodes, hgetc] at hkeys
    obtain ⟨found, hfound, hkeys⟩ := except_bind_eq_ok.mp hkeys
    cases hfound
    rw [orEmpty_of_lookup? hss] at hkeys
    dsimp only at hkeys
    rwa [hgets] at hkeys
  cases schemas with
  | map b'' es' =>
    obtain ⟨e, he, -⟩ := Option.map_eq_some_iff.mp (Except.ok.inj hn)
    have hfound : (e.1 == .text key) = true :=
      List.find?_some (p := fun e : Scalar × Node => e.1 == .text key) he
    have hkey : e.1 = .text key := eq_of_beq hfound
    refine ⟨.leaf (Address.ofKey e.1 b'') e.1, ?_, by rw [hkey]; rfl⟩
    cases es' with
    | nil => cases he
    | cons f es' =>
      cases hitems
      exact List.mem_map.mpr ⟨e, List.mem_of_find?_eq_some he, rfl⟩
  | list b'' items =>
    -- Items of a list would be the keys, and the map is no text.
    obtain ⟨position, -, hn⟩ := except_bind_eq_ok.mp hn
    obtain ⟨i, -, hi⟩ := Option.bind_eq_some_iff.mp (Except.ok.inj hn)
    obtain ⟨item, hitem, hopened⟩ := Option.map_eq_some_iff.mp hi
    cases items with
    | nil => cases hitem
    | cons first items =>
      cases hitems
      obtain ⟨text, htext⟩ :=
        htexts _ (List.mem_map.mpr ⟨item, List.mem_of_getElem? hitem, hopened⟩)
      cases htext
  | leaf b'' v => cases hn
  | link b'' rings => cases hn

/-- The component that a reference leads to has got a name. -/
theorem component_of_resolve {doc : Document} {start : Session}
    (hstart : Session.start doc = .ok start) {segment : List Char} (h : '/' ∉ segment) {n : Node}
    (hn : doc.resolve (componentReference segment) = .ok n) :
    ∃ name, componentName? start.components (componentReference segment) = some name := by
  obtain ⟨keys, hkeys, hrun⟩ := start_eq_ok hstart
  obtain ⟨-, hnames⟩ := lookup_of_claimComponents hrun
  obtain ⟨components, schemas, hc, hs, hkey, a, es, rfl⟩ := enter?_of_resolve h hn
  have htexts (m : Node) (hm : m ∈ keys) : ∃ text, m.asText = .ok text :=
    (hnames m hm).imp fun _ => And.left
  obtain ⟨m, hm, htext⟩ := mem_componentNodes hkeys htexts hc hs hkey
  obtain ⟨key, hkey, hname⟩ := hnames m hm
  cases htext.symm.trans hkey
  rw [componentName?_componentReference h]
  exact Option.isSome_iff_exists.mp hname

end Session

end ServiceContract
