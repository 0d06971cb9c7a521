import ServiceContract.Contract.Build
import ServiceContract.Proofs.Document.Alike
import ServiceContract.Proofs.Document.Entry
import ServiceContract.Proofs.Document.WellFormed
import ServiceContract.Proofs.Text.Split

/-!
# Documents with paths in another order

A document may have its paths in another order, with everything else as it is. As the keys of its
maps are different from each other, all that is read from the two documents is alike, but for the
order in which the paths are built.

## Main definitions

* `Document.Reordered`: documents that differ in the order of their paths.
* `Document.SameRoots`: what their roots have.

## Main results

* `Document.SameRoots.similar`: references lead to nodes that are alike.
* `Document.SameRoots.documentPaths`: the paths, in either order.
-/

namespace ServiceContract

namespace Node

variable {before after : List (Scalar × Node)} {n m : Node} {key key' : String}

theorem lookup?_append (h : ∀ e ∈ before, e.1 ≠ .text key) :
    lookup? key (before ++ (.text key, n) :: after) = some n.opened := by
  rw [lookup?, find?_entry h]
  rfl

theorem lookup?_append_of_ne (hne : key' ≠ key) :
    lookup? key' (before ++ (.text key, n) :: after) =
      lookup? key' (before ++ (.text key, m) :: after) := by
  rw [lookup?, lookup?, find?_entry_of_ne hne, find?_entry_of_ne hne]

end Node

namespace Document

/-- The entries of the paths are the same, in another order, and all else is the same. -/
def Reordered (doc doc' : Document) : Prop :=
  ∃ a before b es es' after, doc.root = .map a (before ++ (.text "paths", .map b es) :: after) ∧
    doc'.root = .map a (before ++ (.text "paths", .map b es') :: after) ∧ es.Perm es' ∧
      doc'.size = doc.size

/-- What is read at the roots of two documents: paths in two orders, and for all other keys the
same. -/
structure SameRoots (doc doc' : Document) (b : Address) (es es' : List (Scalar × Node)) : Prop where
  size : doc.size = doc'.size
  perm : es.Perm es'
  keys : (es.map Prod.fst).Nodup
  paths : doc.root.get? "paths" = .ok (some (.map b es))
  paths' : doc'.root.get? "paths" = .ok (some (.map b es'))
  others : ∀ key ≠ "paths", doc.root.get? key = doc'.root.get? key
  enter : ∀ key, doc.root.enter? key = doc.root.get? key
  enter' : ∀ key, doc'.root.enter? key = doc'.root.get? key

namespace Reordered

variable {doc doc' : Document}

/-- Paths in the order in which they stand are in another order too. -/
theorem self (h : doc.Reordered doc') : doc.Reordered doc := by
  obtain ⟨a, before, b, es, es', after, hroot, -⟩ := h
  exact ⟨a, before, b, es, es, after, hroot, hroot, .refl es, rfl⟩

theorem sameRoots_of_roots {a b : Address} {before after es es' : List (Scalar × Node)}
    (hdoc : doc.WellFormed)
    (hroot : doc.root = .map a (before ++ (.text "paths", .map b es) :: after))
    (hroot' : doc'.root = .map a (before ++ (.text "paths", .map b es') :: after))
    (hperm : es.Perm es') (hsize : doc'.size = doc.size) : SameRoots doc doc' b es es' := by
  have hpart : doc.Part (.map a (before ++ (.text "paths", .map b es) :: after)) := hroot ▸ .root
  have hmem : (Scalar.text "paths", Node.map b es) ∈ before ++
      (.text "paths", .map b es) :: after :=
    List.mem_append_right before List.mem_cons_self
  have hkeys := hdoc.keys hpart
  rw [List.map_append, List.nodup_append] at hkeys
  have hbefore : ∀ e ∈ before, e.1 ≠ .text "paths" := fun e he =>
    hkeys.2.2 e.1 (List.mem_map_of_mem he) _ List.mem_cons_self
  exact
    { size := hsize.symm
      perm := hperm
      keys := hdoc.keys (.entry hpart hmem)
      paths := by rw [hroot, Node.get?, Node.lookup?_append hbefore]; rfl
      paths' := by rw [hroot', Node.get?, Node.lookup?_append hbefore]; rfl
      others := fun key hkey => by
        rw [hroot, hroot', Node.get?, Node.get?]
        rw [Node.lookup?_append_of_ne hkey]
      enter := fun key => by rw [hroot]; rfl
      enter' := fun key => by rw [hroot']; rfl }

theorem sameRoots (hdoc : doc.WellFormed) (h : doc.Reordered doc') :
    ∃ b es es', SameRoots doc doc' b es es' := by
  obtain ⟨a, before, b, es, es', after, hroot, hroot', hperm, hsize⟩ := h
  exact ⟨b, es, es', sameRoots_of_roots hdoc hroot hroot' hperm hsize⟩

end Reordered

namespace SameRoots

variable {doc doc' : Document} {b : Address} {es es' : List (Scalar × Node)}
  (h : SameRoots doc doc' b es es')
include h

theorem get {key : String} (hkey : key ≠ "paths") : doc.root.get key = doc'.root.get key := by
  rw [Node.get, Node.get, h.others key hkey]

/-- References lead to nodes that are alike. -/
theorem similar : doc.Similar doc' where
  size := h.size
  resolve ref := by
    rw [Document.resolve, Document.resolve]
    split
    · rename_i pointer _
      refine .bind (R := Node.Alike) ?_ fun n m hn => ?_
      · obtain ⟨segment, segments, hsplit⟩ :=
          List.exists_cons_of_ne_nil (Text.splitAt_ne_nil '/' pointer)
        rw [hsplit, walk, walk, h.enter, h.enter']
        by_cases hkey : String.ofList (unescapeSegment segment) = "paths"
        · rw [hkey, h.paths, h.paths']
          exact walk_alike (.reorder b h.perm h.keys) ref segments
        · rw [h.others _ hkey]
          exact .refl .refl _
      · cases hn with
        | refl => exact .refl .refl _
        | reorder a hperm hkeys => exact .ok (.reorder a hperm hkeys)
    · exact .error _

theorem infoText (key : String) : infoText doc key = infoText doc' key := by
  rw [ServiceContract.infoText, ServiceContract.infoText, h.get (by decide)]

theorem contractName (chosen : Option String) :
    contractName doc chosen = contractName doc' chosen := by
  rw [ServiceContract.contractName, ServiceContract.contractName, h.infoText]

theorem start : Session.start doc = Session.start doc' := by
  rw [Session.start, Session.start, Session.componentNodes, Session.componentNodes,
    h.get (by decide)]

theorem documentPaths : documentPaths doc = .ok (es.map fun e => (e.1, e.2.opened)) := by
  rw [ServiceContract.documentPaths, Node.get, h.paths]
  cases es <;> rfl

theorem documentPaths' :
    ServiceContract.documentPaths doc' = .ok (es'.map fun e => (e.1, e.2.opened)) := by
  rw [ServiceContract.documentPaths, Node.get, h.paths']
  cases es' <;> rfl

end SameRoots

/-- Each path comes first in some order. -/
theorem Reordered.exists_first {doc doc' : Document} {paths : List (Scalar × Node)}
    {e : Scalar × Node} (hdoc : doc.WellFormed) (h : doc.Reordered doc')
    (hpaths : documentPaths doc = .ok paths) (he : e ∈ paths) :
    ∃ first rest, doc.Reordered first ∧ documentPaths first = .ok (e :: rest) := by
  obtain ⟨a, before, b, es, es', after, hroot, -⟩ := h
  rw [(sameRoots_of_roots hdoc hroot hroot (.refl es) rfl).documentPaths] at hpaths
  cases hpaths
  obtain ⟨f, hf, rfl⟩ := List.mem_map.mp he
  obtain ⟨front, back, rfl⟩ := List.append_of_mem hf
  have hperm : (front ++ f :: back).Perm (f :: (front ++ back)) := List.perm_middle
  let first : Document :=
    { root := .map a (before ++ (.text "paths", .map b (f :: (front ++ back))) :: after),
      size := doc.size }
  refine ⟨first, (front ++ back).map fun e => (e.1, e.2.opened),
    ⟨a, before, b, _, _, after, hroot, rfl, hperm, rfl⟩, ?_⟩
  have hroots : SameRoots doc first b _ _ := sameRoots_of_roots hdoc hroot rfl hperm rfl
  exact hroots.documentPaths'

end Document

end ServiceContract
