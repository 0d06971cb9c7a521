import Mathlib.Data.List.Lex
import Mathlib.Order.Defs.LinearOrder
import ServiceContract.Operation.Content
import ServiceContract.Proofs.Document.Permuted

/-!
# The success response

The success response of an operation is the one with the least status among those that stand for
success. Only this response is read: the content of an operation depends neither on the order of its
responses nor on any of the other ones.

## Main definitions

* `HasResponses`: the responses of an operation.
* `IsSuccessResponse`: the success response among the responses.
* `responseContent`: the content of a response.

## Main results

* `IsSuccessResponse.successContent`: the content of an operation is that of the success response.
* `successContent_outcome`: what the content of an operation depends on.
-/

namespace ServiceContract

open Text

/-! ### The least status -/

section Least

variable {α β : Type}

theorem comesBefore_eq_false_iff {s t : String} :
    comesBefore s t = false ↔ codePoints t.toList ≤ codePoints s.toList := by
  rw [comesBefore, decide_eq_false_iff_not, not_lt]

theorem eq_of_comesBefore_eq_false {s t : String} (h : comesBefore s t = false)
    (h' : comesBefore t s = false) :
    s = t := by
  have heq := le_antisymm (comesBefore_eq_false_iff.mp h') (comesBefore_eq_false_iff.mp h)
  exact String.toList_inj.mp (codePoints_injective heq)

/-- Among several entries there is one with the least status. -/
theorem exists_leastStatus {es : List (String × α)} (hne : es ≠ []) :
    ∃ e ∈ es, leastStatus es = some e ∧ ∀ f ∈ es, comesBefore f.1 e.1 = false := by
  induction es with
  | nil => exact absurd rfl hne
  | cons e es ih =>
    rw [leastStatus]
    by_cases hes : es = []
    · subst hes
      exact ⟨e, List.mem_cons_self, rfl,
        List.forall_mem_singleton.mpr (comesBefore_eq_false_iff.mpr le_rfl)⟩
    · obtain ⟨f, hf, hleast, hbefore⟩ := ih hes
      rw [hleast]
      dsimp only
      split_ifs with hless
      · rw [comesBefore, decide_eq_true_eq] at hless
        exact ⟨f, List.mem_cons_of_mem _ hf, rfl,
          List.forall_mem_cons.mpr ⟨comesBefore_eq_false_iff.mpr hless.le, hbefore⟩⟩
      · rw [Bool.not_eq_true, comesBefore_eq_false_iff] at hless
        refine ⟨e, List.mem_cons_self, rfl,
          List.forall_mem_cons.mpr ⟨comesBefore_eq_false_iff.mpr le_rfl, ?_⟩⟩
        exact fun g hg =>
          comesBefore_eq_false_iff.mpr (hless.trans (comesBefore_eq_false_iff.mp (hbefore g hg)))

theorem leastStatus_map (f : α → β) (es : List (String × α)) :
    leastStatus (es.map fun e => (e.1, f e.2)) = (leastStatus es).map fun e => (e.1, f e.2) := by
  induction es with
  | nil => rfl
  | cons e es ih =>
    rw [List.map_cons, leastStatus, leastStatus, ih]
    cases leastStatus es with
    | none => rfl
    | some least =>
      dsimp only [Option.map_some]
      split_ifs <;> rfl

end Least

/-! ### Responses -/

/-- The operation has these responses, or none if there are none: those of an object with texts that
are different from each other as keys. -/
structure HasResponses (operation : Node) (responses : List (Scalar × Node)) : Prop where
  get : ∃ n a, operation.get "responses" = .ok n ∧ n.orEmpty = .map a responses
  texts : ∀ e ∈ responses, ∃ status, e.1 = .text status
  nodup : (responses.map Prod.fst).Nodup

/-- The response has the least status of those that stand for success. -/
structure IsSuccessResponse (responses : List (Scalar × Node)) (e : Scalar × Node) : Prop where
  mem : e ∈ responses
  success : isSuccess e.1.plain = true
  least : ∀ f ∈ responses, isSuccess f.1.plain = true → comesBefore f.1.plain e.1.plain = false

/-- The content of a response, none if it is absent or empty. -/
def responseContent (doc : Document) (response : Node) : Except Fault (Option Node) := do
  let content ← (← doc.follow response.orEmpty).get "content"
  return if content.isTruthy then some content else none

/-- The responses of an operation in a document as JSON has them. -/
theorem hasResponses_ofValue (before after : List (Scalar × Value))
    {responses : List (Scalar × Value)}
    (hkeyed : (Value.map (before ++ (.text "responses", .map responses) :: after)).isKeyed = true)
    (htexts : ∀ e ∈ responses, ∃ status, e.1 = .text status) (steps : List Step) :
    HasResponses (.ofValue steps (.map (before ++ (.text "responses", .map responses) :: after)))
      (Node.ofEntries (.key (.text "responses") :: steps) responses) := by
  obtain ⟨hbefore, hkeyed⟩ := Value.isKeyed_entry hkeyed
  rw [Value.isKeyed, Bool.and_eq_true, decide_eq_true_eq] at hkeyed
  constructor
  · have hempty : ∃ a, (Node.ofValue (.key (.text "responses") :: steps) (.map responses)).orEmpty =
        .map a (Node.ofEntries (.key (.text "responses") :: steps) responses) := by
      cases responses with
      | nil => exact ⟨_, rfl⟩
      | cons e responses => exact ⟨_, rfl⟩
    obtain ⟨a, hempty⟩ := hempty
    exact ⟨_, a, Node.get_ofValue_entry hbefore steps (.map responses), hempty⟩
  · rw [Node.ofEntries_eq_map]
    exact List.forall_mem_map.mpr htexts
  · rw [Node.ofEntries_eq_map, List.map_map]
    exact hkeyed.1

theorem statuses_map {responses : List (Scalar × Node)}
    (htexts : ∀ e ∈ responses, ∃ status, e.1 = .text status) (a : Address) :
    statuses (.map a responses) =
      .ok (responses.map fun e => (e.1.plain, Except.ok e.2.opened)) := by
  rw [statuses, Node.entries, except_ok_bind]
  induction responses with
  | nil => rfl
  | cons e responses ih =>
    obtain ⟨⟨status, hstatus⟩, htexts⟩ := List.forall_mem_cons.mp htexts
    simp only [List.map_cons, List.mapM_cons, ih htexts, hstatus]
    rfl

section Content

variable {doc : Document} {operation : Node} {responses : List (Scalar × Node)} {e : Scalar × Node}

/-- The response is taken from the list of statuses. -/
theorem HasResponses.successContent_eq (h : HasResponses operation responses) :
    successContent doc operation =
      match leastStatus
        ((responses.map fun e => (e.1.plain, e.2.opened)).filter fun e => isSuccess e.1) with
      | none => .ok none
      | some e => responseContent doc e.2 := by
  obtain ⟨n, a, hget, hempty⟩ := h.get
  rw [successContent, hget, except_ok_bind]
  rw [Node.orEmpty] at hempty
  split_ifs at hempty with htruthy
  · subst hempty
    have hmap : (responses.map fun e => (e.1.plain, (Except.ok e.2.opened : Except Fault Node))) =
        (responses.map fun e => (e.1.plain, e.2.opened)).map fun e => (e.1, .ok e.2) := by
      rw [List.map_map]
      rfl
    rw [htruthy, Bool.not_true, if_neg Bool.false_ne_true, statuses_map h.texts, except_ok_bind,
      hmap, List.filter_map, leastStatus_map]
    simp only [Function.comp_def]
    cases leastStatus _ <;> rfl
  · cases hempty
    rw [Bool.not_eq_true] at htruthy
    rw [htruthy]
    rfl

/-- There is a success response if some status stands for success. -/
theorem exists_isSuccessResponse (h : ∃ e ∈ responses, isSuccess e.1.plain = true) :
    ∃ e, IsSuccessResponse responses e ∧
      leastStatus ((responses.map fun e => (e.1.plain, e.2.opened)).filter fun e => isSuccess e.1) =
        some (e.1.plain, e.2.opened) := by
  have hmem {f : Scalar × Node} (hf : f ∈ responses) (hsuccess : isSuccess f.1.plain = true) :
      (f.1.plain, f.2.opened) ∈ (responses.map fun e => (e.1.plain, e.2.opened)).filter fun e =>
      isSuccess e.1 :=
    List.mem_filter.mpr ⟨List.mem_map_of_mem hf, hsuccess⟩
  obtain ⟨e, he, hsuccess⟩ := h
  obtain ⟨_, hleast, heq, hbefore⟩ := exists_leastStatus (List.ne_nil_of_mem (hmem he hsuccess))
  obtain ⟨hleast, hsuccess⟩ := List.mem_filter.mp hleast
  obtain ⟨f, hf, rfl⟩ := List.mem_map.mp hleast
  exact ⟨f, ⟨hf, hsuccess, fun g hg hg' => hbefore _ (hmem hg hg')⟩, heq⟩

/-- There is only one. -/
theorem IsSuccessResponse.unique {f : Scalar × Node} (h : HasResponses operation responses)
    (he : IsSuccessResponse responses e) (hf : IsSuccessResponse responses f) : e = f := by
  obtain ⟨status, hstatus⟩ := h.texts e he.mem
  obtain ⟨status', hstatus'⟩ := h.texts f hf.mem
  have heq := eq_of_comesBefore_eq_false (hf.least e he.mem he.success)
    (he.least f hf.mem hf.success)
  rw [hstatus, hstatus'] at heq
  refine List.inj_on_of_nodup_map h.nodup he.mem hf.mem ?_
  rw [hstatus, hstatus']
  exact congrArg Scalar.text heq

/-- The content of an operation is that of its success response. -/
theorem IsSuccessResponse.successContent (h : HasResponses operation responses)
    (he : IsSuccessResponse responses e) :
    successContent doc operation = responseContent doc e.2.opened := by
  obtain ⟨f, hf, hleast⟩ := exists_isSuccessResponse ⟨e, he.mem, he.success⟩
  rw [h.successContent_eq, hleast, he.unique h hf]

/-- Without a status that stands for success there is no content. -/
theorem HasResponses.successContent_of_forall (h : HasResponses operation responses)
    (hnone : ∀ e ∈ responses, isSuccess e.1.plain = false) :
    successContent doc operation = .ok none := by
  have hfilter :
      ((responses.map fun e => (e.1.plain, e.2.opened)).filter fun e => isSuccess e.1) = [] := by
    rw [List.filter_eq_nil_iff, List.forall_mem_map]
    exact fun e he => by rw [hnone e he]; exact Bool.false_ne_true
  rw [h.successContent_eq, hfilter]
  rfl

theorem exists_isSuccessResponse_or_forall (responses : List (Scalar × Node)) :
    (∃ e, IsSuccessResponse responses e) ∨ ∀ e ∈ responses, isSuccess e.1.plain = false := by
  by_cases h : ∃ e ∈ responses, isSuccess e.1.plain = true
  · exact .inl ((exists_isSuccessResponse h).imp fun _ he => he.1)
  · exact .inr fun e he => Bool.eq_false_iff.mpr fun hsuccess => h ⟨e, he, hsuccess⟩

/-- Operations with the same success response have the same content. -/
theorem HasResponses.successContent_congr {operation' : Node} {responses' : List (Scalar × Node)}
    (h : HasResponses operation responses) (h' : HasResponses operation' responses')
    (hsame : ∀ e, IsSuccessResponse responses e ↔ IsSuccessResponse responses' e) :
    successContent doc operation = successContent doc operation' := by
  rcases exists_isSuccessResponse_or_forall responses with ⟨e, he⟩ | hnone
  · rw [he.successContent h, ((hsame e).mp he).successContent h']
  · rcases exists_isSuccessResponse_or_forall responses' with ⟨e, he⟩ | hnone'
    · have he := (hsame e).mpr he
      exact absurd he.success (by rw [hnone e he.mem]; exact Bool.false_ne_true)
    · rw [h.successContent_of_forall hnone, h'.successContent_of_forall hnone']

/-- The success response does not depend on the order. -/
theorem isSuccessResponse_of_perm {responses' : List (Scalar × Node)}
    (h : responses.Perm responses') (he : IsSuccessResponse responses e) :
    IsSuccessResponse responses' e where
  mem := h.mem_iff.mp he.mem
  success := he.success
  least f hf := he.least f (h.mem_iff.mpr hf)

/-! ### Permuted responses -/

theorem exists_mem_of_forall₂ {α β : Type} {R : α → β → Prop} {as : List α} {bs : List β}
    (h : List.Forall₂ R as bs) {a : α} (ha : a ∈ as) : ∃ b ∈ bs, R a b := by
  induction h with
  | nil => cases ha
  | cons hab _ ih =>
    rcases List.mem_cons.mp ha with rfl | ha
    · exact ⟨_, List.mem_cons_self, hab⟩
    · exact (ih ha).imp fun b hb => ⟨List.mem_cons_of_mem _ hb.1, hb.2⟩

section Permuted

variable {fs gs : List (Scalar × Node)} (hfs : List.Forall₂ (SameKey Node.Permuted) responses fs)
  (hgs : fs.Perm gs)
include hfs hgs

theorem exists_key_eq {g : Scalar × Node} (hg : g ∈ gs) : ∃ f ∈ responses, f.1 = g.1 := by
  obtain ⟨f, hf, hfg⟩ := exists_mem_of_forall₂ hfs.flip (hgs.mem_iff.mpr hg)
  obtain ⟨key, -⟩ := hfg
  exact ⟨_, hf, rfl⟩

theorem forall_of_permuted (hnone : ∀ e ∈ responses, isSuccess e.1.plain = false) :
    ∀ g ∈ gs, isSuccess g.1.plain = false := by
  intro g hg
  obtain ⟨f, hf, hkey⟩ := exists_key_eq hfs hgs hg
  exact hkey ▸ hnone f hf

/-- The success response among permuted responses. -/
theorem IsSuccessResponse.permuted (he : IsSuccessResponse responses e) :
    ∃ g, IsSuccessResponse gs g ∧ e.2.Permuted g.2 := by
  obtain ⟨g, hg, heg⟩ := exists_mem_of_forall₂ hfs he.mem
  obtain ⟨key, heg⟩ := heg
  refine ⟨_, ⟨hgs.mem_iff.mp hg, he.success, fun g' hg' hsuccess => ?_⟩, heg⟩
  obtain ⟨f, hf, hkey⟩ := exists_key_eq hfs hgs hg'
  rw [← hkey] at hsuccess ⊢
  exact he.least f hf hsuccess

end Permuted

/-- A permuted operation has permuted responses. -/
theorem HasResponses.permuted {operation' : Node} (h : HasResponses operation responses)
    (ho : operation.Permuted operation') :
    ∃ fs gs, HasResponses operation' gs ∧ List.Forall₂ (SameKey Node.Permuted) responses fs ∧
      fs.Perm gs := by
  obtain ⟨n, a, hget, hempty⟩ := h.get
  obtain ⟨n', hget', hn⟩ := (ho.get "responses").eq_ok hget
  have hn := hn.orEmpty
  rw [hempty] at hn
  generalize hempty' : n'.orEmpty = m at hn
  cases hn with
  | refl =>
    exact ⟨responses, responses, ⟨⟨n', a, hget', hempty'⟩, h.texts, h.nodup⟩,
      List.forall₂_same.mpr fun e _ => .mk e.1 (.refl e.2), .refl _⟩
  | @map _ _ fs gs _ hfs hgs =>
    have hkeys : (responses.map Prod.fst).Perm (gs.map Prod.fst) :=
      Node.map_fst_of_sameKey hfs ▸ hgs.map Prod.fst
    refine ⟨fs, gs, ⟨⟨n', a, hget', hempty'⟩, fun g hg => ?_, hkeys.nodup_iff.mp h.nodup⟩, hfs, hgs⟩
    obtain ⟨f, hf, hkey⟩ := exists_key_eq hfs hgs hg
    exact hkey ▸ h.texts f hf

/-- Permuted responses have permuted contents. -/
theorem responseContent_permuted {doc' : Document} {n m : Node} (hdoc : doc.Permuted doc')
    (hn : n.Permuted m) :
    Matches (Option.Rel Node.Permuted) (responseContent doc n) (responseContent doc' m) := by
  refine (hdoc.follow hn.orEmpty).bind fun response response' hresponse => ?_
  refine (hresponse.get "content").bind fun content content' hcontent => .ok ?_
  rw [hcontent.isTruthy]
  split_ifs
  · exact .some hcontent
  · exact .none

/-- Permuted operations in permuted documents have permuted contents. -/
theorem HasResponses.successContent_permuted {doc' : Document} {operation' : Node}
    (h : HasResponses operation responses) (hdoc : doc.Permuted doc')
    (ho : operation.Permuted operation') :
    Matches (Option.Rel Node.Permuted) (successContent doc operation)
      (successContent doc' operation') := by
  obtain ⟨fs, gs, h', hfs, hgs⟩ := h.permuted ho
  rcases exists_isSuccessResponse_or_forall responses with ⟨e, he⟩ | hnone
  · obtain ⟨g, hg, heg⟩ := he.permuted hfs hgs
    rw [he.successContent h, hg.successContent h']
    exact responseContent_permuted hdoc heg.opened
  · rw [h.successContent_of_forall hnone,
      h'.successContent_of_forall (forall_of_permuted hfs hgs hnone)]
    exact .ok .none

end Content

/-- The content of an operation is that of its success response, or none without one. So it is the
same for another operation with the same success response, whatever the other responses are, and for
responses in another order. Where the document has entries of its maps in another order too, the
content differs at most in the order of its own entries. -/
theorem successContent_outcome {doc : Document} {operation : Node}
    {responses : List (Scalar × Node)} (h : HasResponses operation responses) :
    ((∃ e, IsSuccessResponse responses e ∧ successContent doc operation =
      responseContent doc e.2.opened) ∨
        (∀ e ∈ responses, isSuccess e.1.plain = false) ∧ successContent doc operation = .ok none) ∧
      (∀ operation' responses', HasResponses operation' responses' →
        (∀ e, IsSuccessResponse responses e ↔ IsSuccessResponse responses' e) →
          successContent doc operation = successContent doc operation') ∧
      (∀ operation' responses', HasResponses operation' responses' → responses.Perm responses' →
        successContent doc operation = successContent doc operation') ∧
      ∀ doc' operation', doc.Permuted doc' → operation.Permuted operation' →
        Matches (Option.Rel Node.Permuted) (successContent doc operation)
          (successContent doc' operation') := by
  refine ⟨?_, fun operation' responses' h' => h.successContent_congr h',
    fun operation' responses' h' hperm => ?_, fun doc' operation' => h.successContent_permuted⟩
  · exact (exists_isSuccessResponse_or_forall responses).imp
      (fun ⟨e, he⟩ => ⟨e, he, he.successContent h⟩) fun hnone =>
      ⟨hnone, h.successContent_of_forall hnone⟩
  · exact h.successContent_congr h' fun e =>
      ⟨isSuccessResponse_of_perm hperm, isSuccessResponse_of_perm hperm.symm⟩

/-- A document with the given responses of an operation, and with a reply. -/
def replying (responses : List (Scalar × Value)) : Value :=
  .map [(.text "get", .map [(.text "responses", .map responses)]),
    (.text "reply", .map [(.text "content", .map [(.text "text/plain", .map [])])])]

/-- Its operation. -/
def replyingOperation (responses : List (Scalar × Value)) : Node :=
  .ofValue [.key (.text "get")] (.map [(.text "responses", .map responses)])

/-- Two responses that succeed, the second one with the lesser status, behind one whose reference is
broken. -/
def replies : List (Scalar × Value) :=
  [(.text "404", .map [(.text "$ref", .text "#/missing")]), (.text "201", .map []),
    (.text "200", .map [(.text "$ref", .text "#/reply")])]

/-- The reply is found in either order. -/
theorem successContent_outcome_replies :
    HasResponses (replyingOperation replies)
      (Node.ofEntries [.key (.text "responses"), .key (.text "get")] replies) ∧
      successContent (.ofValue (replying replies)) (replyingOperation replies) =
        .ok (some (.ofValue [.key (.text "content"), .key (.text "reply")]
          (.map [(.text "text/plain", .map [])]))) ∧
      Matches (Option.Rel Node.Permuted)
        (successContent (.ofValue (replying replies)) (replyingOperation replies))
        (successContent (.ofValue (replying replies.reverse))
          (replyingOperation replies.reverse)) := by
  have h := hasResponses_ofValue [] [] rfl
    (by simp [replies] : ∀ e ∈ replies, ∃ status, e.1 = .text status) [.key (.text "get")]
  refine ⟨h, rfl, (successContent_outcome h).2.2.2 _ _ ?_ ?_⟩
  · exact Value.PermutedOnce.document
      (.entry [] _ _ (.entry [] [] _ (.here replies.reverse_perm.symm))) rfl
  · exact Value.PermutedOnce.ofValue (.entry [] [] _ (.here replies.reverse_perm.symm)) rfl _

end ServiceContract
