import ServiceContract.Proofs.Operation.Complete

/-!
# The order of paths

Paths are built one after the other, in a session that they share. If each of them can be built by
itself at the start, they can be built in every order. If they can be built in one order, the only
thing that may go wrong in another one is that a resolution does not come to an end, where it comes
to an alias before the declaration that leads back to it.

## Main definitions

* `Session.Settled`: all that a session knows is complete, and no alias is in progress.

## Main results

* `buildPaths_of_alone`: paths that can be built by themselves.
* `isCircular_of_buildPaths`: what can go wrong in another order.
-/

namespace ServiceContract

open Build

/-! ### Settled sessions -/

namespace Session

/-- All that the session knows is complete, and no alias is in progress. -/
structure Settled (r : Resolver) (s : Session) : Prop where
  complete : ∀ o, s.Knows o → r.Complete s.Knows o
  resolving : s.resolving = []

theorem start_settled {r : Resolver} {doc : Document} {s : Session} (h : start doc = .ok s) :
    s.Settled r where
  complete o ho := absurd ho (not_knows_start h o)
  resolving := by rw [start_eq h]; rfl

/-- A session at the start lags behind every settled one. -/
theorem start_lags {r : Resolver} {doc : Document} {s t : Session} (h : start doc = .ok s)
    (ht : t.Settled r) : Lags t.Knows s t where
  known ho := absurd ho (not_knows_start h _)
  covered := id
  rest := .inl
  resolving hr := by
    rw [ht.resolving] at hr
    cases hr

end Session

open Session

variable {r : Resolver} {s t : Session} {includeResponse : Bool} {paths : List (Scalar × Node)}
  {e : Scalar × Node}

/-- An operation that succeeds in a settled session leaves a settled session behind. -/
theorem Build.Parallel.settled {α : Type} {m m' : Build α} {a : α} (h : Parallel r r.doc.Part m m')
    (hs : s.Settled r) (hm : m s = (.ok a, t)) : t.Settled r where
  complete o ho := by
    have hc := h.completes hm
    rcases hc.complete ho with ho | ho
    · exact (hs.complete o ho).mono fun _ => hc.kept
    · exact ho
  resolving := by
    have hg := h.moves (Resolver.resolveWithin_grows (r := r) _) Resolver.note_grows
      Resolver.addMethod_grows s
    rw [hm] at hg
    exact hg.resolving.trans hs.resolving

/-! ### Paths -/

/-- A path is built by itself, and then the others are. -/
theorem buildPaths_cons (e : Scalar × Node) (paths : List (Scalar × Node)) :
    buildPaths r includeResponse (e :: paths) =
      buildPaths r includeResponse [e] >>= fun _ => buildPaths r includeResponse paths := by
  simp only [buildPaths, bind_assoc, pure_bind]

theorem buildPaths_cons_eq_ok :
    buildPaths r includeResponse (e :: paths) s = (.ok (), t) ↔
      ∃ u, buildPaths r includeResponse [e] s = (.ok (), u) ∧
        buildPaths r includeResponse paths u = (.ok (), t) := by
  rw [buildPaths_cons, bind_eq_ok]
  exact ⟨fun ⟨⟨⟩, u, h⟩ => ⟨u, h⟩, fun ⟨u, h⟩ => ⟨(), u, h⟩⟩

/-- A path that is built first can be built by itself. -/
theorem alone_of_buildPaths (h : buildPaths r includeResponse (e :: paths) s = (.ok (), t)) :
    ∃ u, buildPaths r includeResponse [e] s = (.ok (), u) := by
  obtain ⟨u, hu, -⟩ := buildPaths_cons_eq_ok.mp h
  exact ⟨u, hu⟩

/-- Paths that can be built by themselves at the start can be built one after the other in every
settled session. -/
theorem buildPaths_of_alone {doc : Document} {start : Session} (hdoc : r.doc.Addressed)
    (hstart : Session.start doc = .ok start) (hp : ∀ e ∈ paths, r.doc.Part e.2)
    (h : ∀ e ∈ paths, ∃ t, buildPaths r includeResponse [e] start = (.ok (), t))
    (hs : s.Settled r) :
    ∃ t, buildPaths r includeResponse paths s = (.ok (), t) := by
  induction paths generalizing s with
  | nil => exact ⟨s, rfl⟩
  | cons e paths ih =>
    have hpart : ∀ e' ∈ [e], r.doc.Part e'.2 := by
      intro e' he
      exact hp e' (List.mem_singleton.mp he ▸ List.mem_cons_self)
    have hparallel := buildPaths_parallel (Document.part_hereditary r.doc) includeResponse hpart
    obtain ⟨t, ht⟩ := h e List.mem_cons_self
    obtain ⟨⟨⟩, u, hu, -⟩ := hparallel.follows hdoc hs.complete (start_lags hstart hs) ht
    obtain ⟨v, hv⟩ := ih (fun e he => hp e (List.mem_cons_of_mem _ he))
      (fun e he => h e (List.mem_cons_of_mem _ he)) (hparallel.settled hs hu)
    exact ⟨v, buildPaths_cons_eq_ok.mpr ⟨u, hu, hv⟩⟩

/-- Each path that has been built stays within what is known then, wherever it is built again. -/
theorem within_of_buildPaths {D : Origin → Prop} (hdoc : r.doc.Addressed)
    (hclosed : ∀ o, D o → r.Complete D o) (hp : ∀ e ∈ paths, r.doc.Part e.2)
    (h : buildPaths r includeResponse paths s = (.ok (), t)) (ht : ∀ o, t.Knows o → D o) :
    ∀ e ∈ paths, Within D (buildPaths r includeResponse [e]) := by
  induction paths generalizing s with
  | nil => exact fun e he => absurd he List.not_mem_nil
  | cons e paths ih =>
    have hpart : ∀ e' ∈ [e], r.doc.Part e'.2 := by
      intro e' he
      exact hp e' (List.mem_singleton.mp he ▸ List.mem_cons_self)
    have hrest (e : Scalar × Node) (he : e ∈ paths) := hp e (List.mem_cons_of_mem _ he)
    have hparallel := buildPaths_parallel (Document.part_hereditary r.doc) includeResponse hpart
    have hlater := buildPaths_parallel (Document.part_hereditary r.doc) includeResponse hrest
    obtain ⟨u, hu, hrun⟩ := buildPaths_cons_eq_ok.mp h
    intro e' he
    rcases List.mem_cons.mp he with rfl | he
    · exact hparallel.within hdoc hclosed hu fun o ho => ht o ((hlater.completes hrun).kept ho)
    · exact ih hrest hrun e' he

theorem buildPaths_within {D : Origin → Prop}
    (h : ∀ e ∈ paths, Within D (buildPaths r includeResponse [e])) :
    Within D (buildPaths r includeResponse paths) := by
  induction paths with
  | nil => exact .pure ()
  | cons e paths ih =>
    rw [buildPaths_cons]
    exact .bind (h e List.mem_cons_self) fun _ => ih fun e he => h e (List.mem_cons_of_mem _ he)

/-- If paths can be built in one order, nothing can go wrong in another one but that a resolution
does not come to an end. -/
theorem isCircular_of_buildPaths {qs : List (Scalar × Node)} {u : Session} {fault : Fault}
    (hdoc : r.doc.Addressed) (hs : s.Settled r) (hp : ∀ e ∈ paths, r.doc.Part e.2)
    (h : buildPaths r includeResponse paths s = (.ok (), t)) (hq : ∀ e ∈ qs, e ∈ paths)
    (hfault : buildPaths r includeResponse qs s = (.error fault, u)) : fault.IsCircular := by
  have hparallel := buildPaths_parallel (Document.part_hereditary r.doc) includeResponse hp
  have hwithin := within_of_buildPaths hdoc (hparallel.settled hs h).complete hp h fun _ ho => ho
  have hqs : Within t.Knows (buildPaths r includeResponse qs) :=
    buildPaths_within fun e he => hwithin e (hq e he)
  exact (hqs s).2 fault (congrArg Prod.fst hfault)

end ServiceContract
