import ServiceContract.Operation.Method
import ServiceContract.Proofs.Schema.Part

/-!
# Parts of documents among operations

The parameters, contents and schemas that are read for an operation have every hereditary property
that the operation and its path item have.

## Main results

* `Document.Closed.collectKeyedParameters`: parameters.
* `Document.Closed.successContent`, `Document.Closed.firstMedia`: contents and media types.
* `Document.Closed.requestBody`: schemas of request bodies.
-/

namespace ServiceContract

/-- A parameter after an assignment is the assigned one or one from before. -/
theorem snd_of_mem_insertParameter {key : ParameterKey} {parameter : Node}
    {ps : List (ParameterKey × Node)} {p : ParameterKey × Node}
    (h : p ∈ insertParameter key parameter ps) : p.2 = parameter ∨ ∃ q ∈ ps, q.2 = p.2 := by
  induction ps with
  | nil => exact .inl (congrArg Prod.snd (List.mem_singleton.mp h))
  | cons q ps ih =>
    rw [insertParameter] at h
    split_ifs at h
    · rcases List.mem_cons.mp h with rfl | h
      · exact .inl rfl
      · exact .inr ⟨p, List.mem_cons_of_mem _ h, rfl⟩
    · rcases List.mem_cons.mp h with rfl | h
      · exact .inr ⟨p, List.mem_cons_self, rfl⟩
      · exact (ih h).imp_right fun ⟨q', hq', h⟩ => ⟨q', List.mem_cons_of_mem _ hq', h⟩

theorem mem_of_leastStatus {α : Type} {es : List (String × α)} {e : String × α}
    (h : leastStatus es = some e) : e ∈ es := by
  induction es with
  | nil => cases h
  | cons f es ih =>
    rw [leastStatus] at h
    split at h
    · cases h
      exact List.mem_cons_self
    · rename_i least hleast
      split_ifs at h
      · cases h
        exact List.mem_cons_of_mem _ (ih hleast)
      · cases h
        exact List.mem_cons_self

namespace Document.Closed

variable {doc : Document} {P : Node → Prop} (hP : doc.Closed P) {n operation : Node}
include hP

/-! ### Parameters -/

theorem mergeParameters {merged ps : List (ParameterKey × Node)} {ns : List Node}
    (hm : ∀ p ∈ merged, P p.2) (hn : ∀ n ∈ ns, P n)
    (h : ServiceContract.mergeParameters doc merged ns = .ok ps) : ∀ p ∈ ps, P p.2 := by
  induction ns generalizing merged with
  | nil =>
    cases h
    exact hm
  | cons n ns ih =>
    obtain ⟨parameter, hparameter, h⟩ := except_bind_eq_ok.mp h
    obtain ⟨key, -, h⟩ := except_bind_eq_ok.mp h
    refine ih (fun p hp => ?_) (fun n hmem => hn n (List.mem_cons_of_mem _ hmem)) h
    rcases snd_of_mem_insertParameter hp with h | ⟨q, hq, h⟩
    · exact h ▸ hP.follow (hn n List.mem_cons_self) hparameter
    · exact h ▸ hm q hq

/-- The parameters of an operation and its path item. -/
theorem collectKeyedParameters {pathItem : Node} {ps : List (ParameterKey × Node)}
    (hi : P pathItem) (ho : P operation)
    (h : ServiceContract.collectKeyedParameters doc pathItem operation = .ok ps) :
    ∀ p ∈ ps, P p.2 := by
  obtain ⟨shared, hshared, h⟩ := except_bind_eq_ok.mp h
  obtain ⟨sharedItems, hsharedItems, h⟩ := except_bind_eq_ok.mp h
  obtain ⟨own, hown, h⟩ := except_bind_eq_ok.mp h
  obtain ⟨ownItems, hownItems, h⟩ := except_bind_eq_ok.mp h
  refine hP.mergeParameters (fun p hp => absurd hp List.not_mem_nil) (fun n hn => ?_) h
  rcases List.mem_append.mp hn with hn | hn
  · exact hP.itemsIfAny (hP.get hi hshared) hsharedItems hn
  · exact hP.itemsIfAny (hP.get ho hown) hownItems hn

/-! ### Contents -/

/-- The responses that statuses lead to. -/
theorem statuses {es : List (String × Except Fault Node)} {e : String × Except Fault Node}
    {response : Node} (hn : P n) (h : ServiceContract.statuses n = .ok es) (he : e ∈ es)
    (hr : e.2 = .ok response) : P response := by
  have htext {status : Value} {answer : Except Fault Node} (h : statusText status answer = .ok e) :
      answer = .ok response := by
    obtain ⟨text, -, h⟩ := except_bind_eq_ok.mp h
    cases h
    exact hr
  unfold ServiceContract.statuses at h
  split at h
  · obtain ⟨entries, hentries, h⟩ := except_bind_eq_ok.mp h
    obtain ⟨entry, hentry, h⟩ := mem_of_mapM_eq_ok h he
    cases htext h
    exact hP.entries hn hentries hentry
  · obtain ⟨items, hitems, h⟩ := except_bind_eq_ok.mp h
    obtain ⟨item, -, h⟩ := mem_of_mapM_eq_ok h he
    have hat := htext h
    unfold responseAt at hat
    split at hat
    · split at hat
      · rename_i i found hfound
        cases hat
        exact hP.items hn hitems (List.mem_of_getElem? hfound)
      · cases hat
    · cases hat
  · obtain ⟨items, -, h⟩ := except_bind_eq_ok.mp h
    obtain ⟨item, -, h⟩ := mem_of_mapM_eq_ok h he
    cases htext h

/-- The content of the success response. -/
theorem successContent (ho : P operation)
    (h : ServiceContract.successContent doc operation = .ok (some n)) : P n := by
  obtain ⟨responses, hresponses, h⟩ := except_bind_eq_ok.mp h
  split_ifs at h
  · cases h
  obtain ⟨es, hes, h⟩ := except_bind_eq_ok.mp h
  split at h
  · cases h
  · rename_i status response hleast
    obtain ⟨stated, hstated, h⟩ := except_bind_eq_ok.mp h
    obtain ⟨target, htarget, h⟩ := except_bind_eq_ok.mp h
    obtain ⟨content, hcontent, h⟩ := except_bind_eq_ok.mp h
    split_ifs at h
    · cases h
      have hmem := (List.mem_filter.mp (mem_of_leastStatus hleast)).1
      have hstatedP := hP.statuses (hP.get ho hresponses) hes hmem hstated
      exact hP.get (hP.follow (hP.orEmpty hstatedP) htarget) hcontent
    · cases h

/-- The description of the first media type. -/
theorem firstMedia {content : Option Node} {mediaType : Scalar} (hc : ∀ c, content = some c → P c)
    (h : ServiceContract.firstMedia content = .ok (some (mediaType, n))) : P n := by
  unfold ServiceContract.firstMedia at h
  split at h
  · cases h
  · obtain ⟨es, hes, h⟩ := except_bind_eq_ok.mp h
    split at h
    · cases h
    · cases h
      exact hP.orEmpty (hP.entriesIfAny (hc _ rfl) hes List.mem_cons_self)

/-- The schema of the request body. -/
theorem requestBody {mediaType : Scalar} {required : Bool} (ho : P operation)
    (h : ServiceContract.requestBody doc operation = .ok (some (mediaType, n, required))) :
    P n := by
  obtain ⟨body, hbody, h⟩ := except_bind_eq_ok.mp h
  split_ifs at h
  · cases h
  obtain ⟨target, htarget, h⟩ := except_bind_eq_ok.mp h
  obtain ⟨content, hcontent, h⟩ := except_bind_eq_ok.mp h
  obtain ⟨media, hmedia, h⟩ := except_bind_eq_ok.mp h
  split at h
  · cases h
  · obtain ⟨schema, hschema, h⟩ := except_bind_eq_ok.mp h
    split_ifs at h
    · cases h
    · obtain ⟨flag, -, h⟩ := except_bind_eq_ok.mp h
      cases h
      have hp := hP.get (hP.follow (hP.get ho hbody) htarget) hcontent
      exact hP.get (hP.firstMedia (fun c hc => Option.some.inj hc ▸ hp) hmedia) hschema

end Document.Closed

end ServiceContract
