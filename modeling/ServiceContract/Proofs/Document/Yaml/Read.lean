import ServiceContract.Document.Yaml.Read
import ServiceContract.Proofs.Document.Subnode
import ServiceContract.Proofs.Document.WellFormed
import ServiceContract.Proofs.Document.Yaml.Content

/-!
# Nodes of YAML vertices

Each vertex becomes one node. While the nodes are made, those that are finished stay as they are,
and the vertices around the place are not finished yet. So in the end each part of the document is
the node of a vertex, with the number of the vertex as its address.

## Main definitions

* `Yaml.Unfolding.done?`, `Yaml.Unfolding.Known`: the nodes that are finished, and those that may
  stand inside them.
* `Yaml.Unfolding.Sound`: what is finished is the node of its vertex.
* `Yaml.Unfolding.Ties`: a way in which the links of finished nodes are tied.

## Main results

* `Yaml.Unfolding.node_keeps`: what it takes to make the node of a vertex.
* `Yaml.wellFormed_of_read`: documents that are read from YAML are well-formed.
-/

namespace ServiceContract.Yaml

namespace Unfolding

/-- The finished node of a vertex. -/
def done? (s : Unfolding) (v : Nat) : Option Node :=
  (s.finished[v]?).join

/-- What may stand inside of a finished node: a finished node, a link or null. -/
inductive Known (s : Unfolding) : Node → Prop
  | null : Known s .null
  | link (v : Nat) : Known s (.link (.number v) [])
  | done {v : Nat} {n : Node} (h : s.done? v = some n) : Known s n

/-- The node is one of the vertex `v`. -/
inductive Stands (s : Unfolding) (v : Nat) : Node → Prop
  | null : Stands s v .null
  | leaf (value : Scalar) : Stands s v (.leaf (.number v) value)
  | list {ns : List Node} (h : ∀ n ∈ ns, s.Known n) : Stands s v (.list (.number v) ns)
  | map {es : List (Scalar × Node)} (hk : (es.map Prod.fst).Nodup) (h : ∀ e ∈ es, s.Known e.2) :
    Stands s v (.map (.number v) es)

/-- Every finished node is one of its vertex. -/
structure Sound (contents : Contents) (s : Unfolding) : Prop where
  size : s.finished.size = contents.made.size
  stands : ∀ {v n}, s.done? v = some n → s.Stands v n

/-- What is finished stays as it is, and the vertices `above` are not finished on the way. -/
structure Extends (above : List Nat) (s t : Unfolding) : Prop where
  kept : ∀ {v n}, s.done? v = some n → t.done? v = some n
  pending : ∀ v ∈ above, s.done? v = none → t.done? v = none

variable {contents : Contents} {above : List Nat} {s t u : Unfolding} {n : Node} {v : Nat}

instance : IsPreorder Unfolding (Extends above) where
  refl _ := ⟨id, fun _ _ h => h⟩
  trans _ _ _ h h' :=
    ⟨fun hs => h'.kept (h.kept hs), fun v hv hs => h'.pending v hv (h.pending v hv hs)⟩

theorem Known.mono (h : s.Known n) (hst : ∀ {v n}, s.done? v = some n → t.done? v = some n) :
    t.Known n := by
  cases h with
  | null => exact .null
  | link v => exact .link v
  | done h => exact .done (hst h)

theorem Stands.mono (h : s.Stands v n) (hst : ∀ {v n}, s.done? v = some n → t.done? v = some n) :
    t.Stands v n := by
  cases h with
  | null => exact .null
  | leaf value => exact .leaf value
  | list h => exact .list fun n hn => (h n hn).mono hst
  | map hk h => exact .map hk fun e he => (h e he).mono hst

/-- The node of the vertex `v` is finished. -/
def finish (s : Unfolding) (v : Nat) (n : Node) : Unfolding :=
  { s with finished := s.finished.setIfInBounds v (some n) }

theorem done?_finish (s : Unfolding) (v : Nat) (n : Node) (w : Nat) :
    (s.finish v n).done? w = if v = w ∧ v < s.finished.size then some n else s.done? w := by
  rw [done?, done?, finish, Array.getElem?_setIfInBounds]
  by_cases hvw : v = w
  · subst hvw
    by_cases hv : v < s.finished.size
    · rw [if_pos rfl, if_pos hv, if_pos ⟨rfl, hv⟩]
      rfl
    · rw [if_pos rfl, if_neg hv, if_neg fun h =>
        hv h.2, Array.getElem?_eq_none (Nat.le_of_not_lt hv)]
  · rw [if_neg hvw, if_neg fun h => hvw h.1]

/-- A vertex that was not finished before is finished. -/
theorem sound_finish (ht : t.Sound contents) (hext : Extends (v :: above) s t)
    (hd : s.done? v = none) (hv : v ∉ above) (hn : t.Stands v n)
    (hbound : v < contents.made.size ∨ n = .null) :
    (t.finish v n).Sound contents ∧ Extends above s (t.finish v n) ∧ (t.finish v n).Known n := by
  have hpending : t.done? v = none := hext.pending v List.mem_cons_self hd
  have hkept {w : Nat} {m : Node} (h : t.done? w = some m) : (t.finish v n).done? w = some m := by
    rw [done?_finish, if_neg, h]
    rintro ⟨rfl, -⟩
    rw [hpending] at h
    cases h
  refine ⟨⟨?_, fun {w m} hw => ?_⟩, ⟨fun h => hkept (hext.kept h), fun w hw h => ?_⟩, ?_⟩
  · rw [finish, Array.size_setIfInBounds, ht.size]
  · rw [done?_finish] at hw
    split_ifs at hw with hvw
    · obtain ⟨rfl, -⟩ := hvw
      cases hw
      exact hn.mono hkept
    · exact (ht.stands hw).mono hkept
  · rw [done?_finish, if_neg]
    · exact hext.pending w (List.mem_cons_of_mem v hw) h
    · rintro ⟨rfl, -⟩
      exact hv hw
  · rcases hbound with hbound | rfl
    · refine .done (v := v) ?_
      rw [done?_finish, if_pos ⟨rfl, ht.size ▸ hbound⟩]
    · exact .null

/-! ### Making nodes -/

/-- The node of the content of a vertex, whose parts are below the given vertices. -/
def contentNode (contents : Contents) (fuel : Nat) (above : List Nat) (v : Nat) :
    StateM Unfolding Node :=
  match contents.get? v with
  | some (.scalar s) => pure (.leaf (.number v) s)
  | some (.list parts) => do return .list (.number v) (← parts.mapM (node contents fuel above))
  | some (.map entries) => do
    return .map (.number v)
      (← entries.mapM fun e => do return (e.1, ← node contents fuel above e.2))
  | none => pure .null

/-- The node of a vertex is finished, a link, or one that is made and finished. -/
theorem node_succ (contents : Contents) (fuel : Nat) (above : List Nat) (v : Nat) (s : Unfolding) :
    node contents (fuel + 1) above v s =
      match s.done? v with
      | some n => (n, s)
      | none =>
        if v ∈ above then
          (.link (.number v) [],
            { s with rings := if s.rings.contains v then s.rings else v :: s.rings })
        else
          let made := contentNode contents fuel (v :: above) v s
          (made.1, made.2.finish v made.1) := by
  have hread : node contents (fuel + 1) above v s = (match s.done? v with
      | some n => pure n
      | none => _ : StateM Unfolding Node) s := rfl
  rw [hread]
  cases s.done? v with
  | some n => rfl
  | none =>
    dsimp only
    by_cases hv : v ∈ above
    · rw [if_pos hv, if_pos (List.contains_iff_mem.mpr hv)]
      rfl
    · rw [if_neg hv, if_neg fun h => hv (List.contains_iff_mem.mp h), contentNode]
      cases contents.get? v with
      | none => rfl
      | some content => cases content <;> rfl

/-- The step keeps what is finished sound and as it is, and its answer has the property `Q`. -/
def Keeps {α : Type} (contents : Contents) (above : List Nat) (Q : Unfolding → α → Prop)
    (m : StateM Unfolding α) : Prop :=
  ∀ s, s.Sound contents → (m s).2.Sound contents ∧ Extends above s (m s).2 ∧ Q (m s).2 (m s).1

theorem Keeps.mapM {α β : Type} {f : α → StateM Unfolding β} {Q : Unfolding → β → Prop}
    (hQ : ∀ {s t b}, Q s b → Extends above s t → Q t b) (hf : ∀ a, Keeps contents above Q (f a))
    (xs : List α) : Keeps contents above (fun s ys => ∀ y ∈ ys, Q s y) (xs.mapM f) := by
  induction xs with
  | nil => exact fun s hs => ⟨hs, refl_of (Extends above) s, fun y hy => absurd hy List.not_mem_nil⟩
  | cons x xs ih =>
    intro s hs
    obtain ⟨hs₁, hext₁, hq₁⟩ := hf x s hs
    obtain ⟨hs₂, hext₂, hq₂⟩ := ih _ hs₁
    rw [List.mapM_cons]
    refine ⟨hs₂, trans_of (Extends above) hext₁ hext₂, ?_⟩
    exact List.forall_mem_cons.mpr ⟨hQ hq₁ hext₂, hq₂⟩

/-- The keys are the same when the values of entries are made. -/
theorem keys_of_mapM {α : Type} {f : Scalar × α → StateM Unfolding (Scalar × Node)}
    (hf : ∀ e s, (f e s).1.1 = e.1) (es : List (Scalar × α)) (s : Unfolding) :
    (es.mapM f s).1.map Prod.fst = es.map Prod.fst := by
  induction es generalizing s with
  | nil => rfl
  | cons e es ih =>
    rw [List.mapM_cons]
    exact congrArg₂ List.cons (hf e s) (ih (f e s).2)

/-- The node of the content of a vertex stands for it, if the nodes of its parts may stand
inside. -/
theorem contentNode_keeps (hc : contents.Keyed)
    (hparts : ∀ v, Keeps contents above Known (node contents fuel above v)) (v : Nat) :
    Keeps contents above (fun t n => t.Stands v n ∧ (v < contents.made.size ∨ n = .null))
      (contentNode contents fuel above v) := by
  intro s hs
  have hstart := refl_of (Extends above) s
  rw [contentNode]
  cases hcontent : contents.get? v with
  | none => exact ⟨hs, hstart, .null, .inr rfl⟩
  | some content =>
    have hbound : v < contents.made.size := by
      by_contra hsize
      rw [Contents.get?, Array.getElem?_eq_none (Nat.le_of_not_lt hsize)] at hcontent
      cases hcontent
    cases content with
    | scalar value => exact ⟨hs, hstart, .leaf value, .inl hbound⟩
    | list parts =>
      obtain ⟨hs', hext, hnodes⟩ := Keeps.mapM (fun h hext => h.mono hext.kept) hparts parts s hs
      exact ⟨hs', hext, .list hnodes, .inl hbound⟩
    | map entries =>
      let f (e : Scalar × Nat) : StateM Unfolding (Scalar × Node) := do
        return (e.1, ← node contents fuel above e.2)
      have hf (e) :
          Keeps contents above (fun s e => s.Known e.2) (f e) := fun s hs => hparts e.2 s hs
      obtain ⟨hs', hext, hnodes⟩ := Keeps.mapM (fun h hext => h.mono hext.kept) hf entries s hs
      have hkeys := keys_of_mapM (f := f) (fun _ _ => rfl) entries s
      exact ⟨hs', hext, .map (hkeys ▸ hc v entries hcontent) hnodes, .inl hbound⟩

/-- The node of a vertex may stand inside of others. -/
theorem node_keeps (hc : contents.Keyed) (fuel : Nat) (above : List Nat) (v : Nat) :
    Keeps contents above Known (node contents fuel above v) := by
  induction fuel generalizing above v with
  | zero => exact fun s hs => ⟨hs, refl_of (Extends above) s, .null⟩
  | succ fuel ih =>
    intro s hs
    rw [node_succ]
    cases hd : s.done? v with
    | some n => exact ⟨hs, refl_of (Extends above) s, .done hd⟩
    | none =>
      dsimp only
      by_cases hv : v ∈ above
      · rw [if_pos hv]
        exact ⟨⟨hs.size, fun h => (hs.stands h).mono id⟩, ⟨id, fun _ _ h => h⟩, .link v⟩
      · rw [if_neg hv]
        obtain ⟨ht, hext, hn, hbound⟩ := contentNode_keeps hc (ih (v :: above)) v s hs
        exact sound_finish ht hext hd hv hn hbound

/-- No node of a number of vertices is finished. -/
def start (size : Nat) : Unfolding :=
  { finished := Array.replicate size none, rings := [] }

theorem done?_start (size v : Nat) : (start size).done? v = none := by
  rw [done?, start, Array.getElem?_replicate]
  split_ifs <;> rfl

theorem sound_start (contents : Contents) : (start contents.made.size).Sound contents where
  size := Array.size_replicate
  stands {v n} h := by
    rw [done?_start] at h
    cases h

/-- The node of a vertex around which there is no other. -/
theorem node_root (hc : contents.Keyed) (fuel root : Nat) :
    ∃ n t u, node contents (fuel + 1) [] root (start contents.made.size) = (n, t) ∧
      t.Sound contents ∧
      t.Known n ∧ Stands u root n := by
  have hd := done?_start contents.made.size root
  obtain ⟨ht, hext, hn, hbound⟩ :=
    contentNode_keeps hc (node_keeps hc fuel [root]) root _ (sound_start contents)
  obtain ⟨hs, -, hknown⟩ := sound_finish ht hext hd List.not_mem_nil hn hbound
  refine ⟨_, _, _, ?_, hs, hknown, hn⟩
  rw [node_succ, hd]
  rfl

/-! ### Rings -/

theorem tieItems_eq_map (rings : List (Address × Node)) (ns : List Node) :
    Node.tieItems rings ns = ns.map (Node.tie rings) := by
  induction ns with
  | nil => rfl
  | cons n ns ih => rw [Node.tieItems, ih, List.map_cons]

theorem tieEntries_eq_map (rings : List (Address × Node)) (es : List (Scalar × Node)) :
    Node.tieEntries rings es = es.map fun e => (e.1, e.2.tie rings) := by
  induction es with
  | nil => rfl
  | cons e es ih => rw [Node.tieEntries, ih, List.map_cons]

/-- What a link stands for is a finished node or null. -/
theorem lookup_ringNodes (s : Unfolding) (v : Nat) :
    (s.ringNodes.lookup (.number v)).getD .null = .null ∨
      s.done? v = some ((s.ringNodes.lookup (.number v)).getD .null) := by
  rw [ringNodes]
  induction s.rings with
  | nil => exact .inl rfl
  | cons w ws ih =>
    rw [List.map_cons]
    by_cases hvw : v = w
    · subst hvw
      rw [List.lookup_cons_self, Option.getD_some, ← done?]
      cases s.done? v with
      | none => exact .inl rfl
      | some n => exact .inr rfl
    · have hne : (Address.number v == .number w) = false := by simpa using hvw
      rw [List.lookup_cons, hne]
      exact ih

/-- A way in which the links of finished nodes are tied. -/
structure Ties (s : Unfolding) (tie : Node → Node) : Prop where
  null : tie .null = .null
  leaf : ∀ a value, tie (.leaf a value) = .leaf a value
  list : ∀ a ns, tie (.list a ns) = .list a (ns.map tie)
  map : ∀ a es, tie (.map a es) = .map a (es.map fun e => (e.1, tie e.2))
  link : ∀ v, (tie (.link (.number v) [])).opened = .null ∨
    ∃ n, s.done? v = some n ∧ (tie (.link (.number v) [])).opened = tie n

/-- Links that are left as they are stand for null. -/
theorem ties_id (s : Unfolding) : s.Ties id where
  null := rfl
  leaf _ _ := rfl
  list a ns := by rw [List.map_id, id]
  map a es := congrArg (Node.map a) (List.map_id es).symm
  link _ := .inl rfl

theorem ties_tie (s : Unfolding) : s.Ties (Node.tie s.ringNodes) where
  null := rfl
  leaf _ _ := rfl
  list a ns := congrArg (Node.list a) (tieItems_eq_map _ ns)
  map a es := congrArg (Node.map a) (tieEntries_eq_map _ es)
  link v := by
    rw [Node.tie, Node.opened]
    rcases lookup_ringNodes s v with hnone | hdone
    · rw [hnone]
      exact .inl rfl
    · exact .inr ⟨_, hdone, rfl⟩

variable {tie : Node → Node}

/-- A finished node that is tied has the number of its vertex. -/
theorem Ties.address (ht : s.Ties tie) (h : s.Stands v n) (hne : n ≠ .null) :
    (tie n).address = .number v := by
  cases h with
  | null => exact absurd rfl hne
  | leaf value => rw [ht.leaf]; rfl
  | list h => rw [ht.list]; rfl
  | map hk h => rw [ht.map]; rfl

theorem Ties.opened (ht : s.Ties tie) (h : t.Stands v n) : (tie n).opened = tie n := by
  cases h with
  | null => rw [ht.null]; rfl
  | leaf value => rw [ht.leaf]; rfl
  | list h => rw [ht.list]; rfl
  | map hk h => rw [ht.map]; rfl

/-- A finished node, with its links tied. -/
def IsTied (s : Unfolding) (tie : Node → Node) (m : Node) : Prop :=
  ∃ v n, s.done? v = some n ∧ n ≠ .null ∧ m = tie n

/-- What stands inside of a finished node is null or a finished node. -/
theorem Ties.known (ht : s.Ties tie) (hs : s.Sound contents) (h : s.Known n) :
    (tie n).opened.IsBlank ∨ s.IsTied tie (tie n).opened := by
  have hdone {v : Nat} {n : Node} (h : s.done? v = some n) :
      (tie n).IsBlank ∨ s.IsTied tie (tie n) := by
    by_cases hn : n = .null
    · exact .inl (.inl (by rw [hn, ht.null]))
    · exact .inr ⟨v, n, h, hn, rfl⟩
  cases h with
  | null =>
    rw [ht.null]
    exact .inl (.inl rfl)
  | link v =>
    rcases ht.link v with hnull | ⟨n, hn, heq⟩
    · exact .inl (.inl hnull)
    · rw [heq]
      exact hdone hn
  | done h =>
    rw [ht.opened (hs.stands h)]
    exact hdone h

/-- The parts of a document of finished nodes are told by the numbers of their vertices. -/
theorem placed_of_ties {doc : Document} (hs : s.Sound contents) (ht : s.Ties tie)
    (hroot : doc.root.IsBlank ∨ s.IsTied tie doc.root) : doc.Placed (s.IsTied tie) := by
  refine
    { root := hroot
      item := ?_
      entry := ?_
      place := ?_
      unique := ?_
      keys := ?_ }
  · rintro a ns n ⟨v, m, hm, -, heq⟩ hn
    cases hs.stands hm with
    | null => cases heq.trans ht.null
    | leaf value => cases heq.trans (ht.leaf _ value)
    | list h =>
      cases heq.trans (ht.list _ _)
      obtain ⟨n, hmem, rfl⟩ := List.mem_map.mp hn
      exact ht.known hs (h n hmem)
    | map hk h => cases heq.trans (ht.map _ _)
  · rintro a es e ⟨v, m, hm, -, heq⟩ he
    cases hs.stands hm with
    | null => cases heq.trans ht.null
    | leaf value => cases heq.trans (ht.leaf _ value)
    | list h => cases heq.trans (ht.list _ _)
    | map hk h =>
      cases heq.trans (ht.map _ _)
      obtain ⟨e, hmem, rfl⟩ := List.mem_map.mp he
      exact ht.known hs (h e hmem)
  · rintro n ⟨v, m, hm, hne, rfl⟩
    exact .inr ⟨v, ht.address (hs.stands hm) hne⟩
  · rintro n n' ⟨v, m, hm, hne, rfl⟩ ⟨v', m', hm', hne', rfl⟩ heq
    rw [ht.address (hs.stands hm) hne, ht.address (hs.stands hm') hne'] at heq
    cases heq
    cases hm.symm.trans hm'
    rfl
  · rintro a es ⟨v, m, hm, -, heq⟩
    cases hs.stands hm with
    | null => cases heq.trans ht.null
    | leaf value => cases heq.trans (ht.leaf _ value)
    | list h => cases heq.trans (ht.list _ _)
    | map hk h =>
      cases heq.trans (ht.map _ _)
      rw [List.map_map]
      exact hk

end Unfolding

/-- The parts of the document of a vertex are finished nodes. -/
theorem placed_document {contents : Contents} (hc : contents.Keyed) (root : Nat) :
    ∃ t tie, t.Sound contents ∧ (contents.document root).Placed (Unfolding.IsTied t tie) := by
  obtain ⟨n, t, u, hnode, hs, hknown, hstands⟩ := Unfolding.node_root hc contents.made.size root
  have hdocument : contents.document root =
      { root := if t.rings.isEmpty then n else n.tie t.ringNodes, size := contents.made.size } := by
    have hread : contents.document root =
        let made :=
          Unfolding.node contents (contents.made.size + 1) [] root (.start contents.made.size)
        { root := if made.2.rings.isEmpty then made.1 else made.1.tie made.2.ringNodes
          size := contents.made.size } := rfl
    rw [hread, hnode]
  have hroot {tie : Node → Node} (ht : t.Ties tie) : (tie n).IsBlank ∨ t.IsTied tie (tie n) := by
    rw [← ht.opened hstands]
    exact ht.known hs hknown
  rw [hdocument]
  by_cases hrings : t.rings.isEmpty = true
  · rw [if_pos hrings]
    exact ⟨t, id, hs, Unfolding.placed_of_ties hs t.ties_id (hroot t.ties_id)⟩
  · rw [if_neg hrings]
    exact ⟨t, Node.tie t.ringNodes, hs, Unfolding.placed_of_ties hs t.ties_tie (hroot t.ties_tie)⟩

/-- A document has no more parts than there are vertices. -/
theorem counted_document {contents : Contents} (hc : contents.Keyed) (root : Nat) :
    (contents.document root).Counted := by
  obtain ⟨t, tie, hs, hplaced⟩ := placed_document hc root
  refine ⟨t.finished.toList.filterMap (Option.map tie), ?_, fun {a e es} hn => ?_⟩
  · calc (t.finished.toList.filterMap (Option.map tie)).length
      _ ≤ t.finished.toList.length := List.length_filterMap_le _ _
      _ = contents.made.size := hs.size
      _ = (contents.document root).size := rfl
  · rcases hplaced.of_part hn with hblank | ⟨_, _, hkey⟩ | ⟨v, n, hdone, -, heq⟩
    · rcases hblank with hnull | hempty | ⟨_, hchar⟩
      · cases hnull
      · cases hempty
      · cases hchar
    · cases hkey
    · have hfound : t.finished[v]? = some (some n) := Option.join_eq_some_iff.mp hdone
      refine List.mem_filterMap.mpr ⟨some n, ?_, congrArg some heq.symm⟩
      exact List.mem_iff_getElem?.mpr ⟨v, hfound ▸ Array.getElem?_toList⟩

/-- Documents that are read from YAML are well-formed, and have no more parts than their size
says. -/
theorem wellFormed_of_read {text : String} {doc : Document} (h : read text = .ok doc) :
    doc.WellFormed ∧ doc.Counted := by
  obtain ⟨ts, -, h⟩ := except_bind_eq_ok.mp h
  obtain ⟨⟨root, g⟩, -, h⟩ := except_bind_eq_ok.mp h
  cases root with
  | none =>
    cases h
    exact ⟨Document.wellFormed_ofValue (by decide), (Document.isTree_ofValue _).counted⟩
  | some root =>
    obtain ⟨contents, hcontents, h⟩ := except_bind_eq_ok.mp h
    cases h
    have hc := keyed_of_readContents hcontents
    obtain ⟨t, tie, -, hplaced⟩ := placed_document hc root
    exact ⟨Document.wellFormed_of_placed hplaced, counted_document hc root⟩

end ServiceContract.Yaml
