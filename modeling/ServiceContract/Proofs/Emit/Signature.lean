import ServiceContract.Emit.Render
import ServiceContract.Proofs.Session.Run

/-!
# Signatures in Python

The text of a contract has one definition for each of its methods. It opens with the name of the
method, `self`, and the parameters, all of them given by keyword.

## Main definitions

* `Python.opening`: the text of a definition up to its result.
* `Python.Defines`: texts with such a definition.

## Main results

* `Python.defines_of_render`: the definitions in the text of a contract.
-/

namespace ServiceContract.Python

/-- A definition up to its result. -/
def opening (name : String) (parameters : List Binding) : String :=
  "\n    def " ++ name ++ "(\n        self,\n" ++
    (if parameters.isEmpty then ""
    else "        *,\n" ++
      String.join (parameters.map fun p => "        " ++ parameter p ++ ",\n")) ++
    "    ) -> "

/-- The text has a definition with this name, which has just these parameters behind `self`. -/
def Defines (text name : String) (parameters : List Binding) : Prop :=
  ∃ before after, text = before ++ opening name parameters ++ after

section Defines

variable {text name : String} {parameters : List Binding}

theorem defines_opening (name : String) (parameters : List Binding) :
    Defines (opening name parameters) name parameters :=
  ⟨"", "", by rw [String.empty_append, String.append_empty]⟩

theorem Defines.append (h : Defines text name parameters) (back : String) :
    Defines (text ++ back) name parameters := by
  obtain ⟨before, after, rfl⟩ := h
  exact ⟨before, after ++ back, String.append_assoc⟩

theorem Defines.prepend (h : Defines text name parameters) (front : String) :
    Defines (front ++ text) name parameters := by
  obtain ⟨before, after, rfl⟩ := h
  exact ⟨front ++ before, after, by simp only [String.append_assoc]⟩

end Defines

/-- The text of a method is its definition. -/
theorem defines_of_method {isInterface : Bool} {m : Method} {text : String}
    (h : method isInterface m = .ok text) : Defines text (identifier m.name) m.parameters := by
  obtain ⟨path, -, h⟩ := except_bind_eq_ok.mp h
  cases h
  have hopening := defines_opening (identifier m.name) m.parameters
  -- Behind the opening come the result, the description and what is done.
  exact .append
    (.append (.append (.append (.append (.append (.append (.append hopening _) _) _) _) _) _) _) _

theorem exists_join_eq {text : String} {texts : List String} (h : text ∈ texts) :
    ∃ before after, String.join texts = before ++ text ++ after := by
  induction texts with
  | nil => cases h
  | cons t texts ih =>
    rcases List.mem_cons.mp h with rfl | h
    · exact ⟨"", String.join texts, by rw [String.join_cons, String.empty_append]⟩
    · obtain ⟨before, after, heq⟩ := ih h
      exact ⟨t ++ before, after, by rw [String.join_cons, heq]; simp only [String.append_assoc]⟩

/-- Each item has a result, if none is a fault. -/
theorem exists_of_mapM_eq_ok {α β : Type} {f : α → Except Fault β} {xs : List α}
    {ys : List β} {x : α} (h : xs.mapM f = .ok ys) (hx : x ∈ xs) : ∃ y ∈ ys, f x = .ok y := by
  induction xs generalizing ys with
  | nil => cases hx
  | cons z xs ih =>
    rw [List.mapM_cons] at h
    obtain ⟨y, hy, h⟩ := except_bind_eq_ok.mp h
    obtain ⟨ys, hys, h⟩ := except_bind_eq_ok.mp h
    cases h
    rcases List.mem_cons.mp hx with rfl | hx
    · exact ⟨y, List.mem_cons_self, hy⟩
    · obtain ⟨y', hy', h⟩ := ih hys hx
      exact ⟨y', List.mem_cons_of_mem _ hy', h⟩

/-- The text of a contract has the definitions of all its methods. -/
theorem defines_of_render {c : Contract} {text : String} (h : render c = .ok text) :
    ∀ m ∈ c.methods, Defines text (identifier m.name) m.parameters := by
  obtain ⟨methods, hmethods, h⟩ := except_bind_eq_ok.mp h
  cases h
  intro m hm
  obtain ⟨definition, hmem, hdefinition⟩ := exists_of_mapM_eq_ok hmethods hm
  obtain ⟨before, after, hjoin⟩ := exists_join_eq hmem
  rw [hjoin]
  exact (((defines_of_method hdefinition).prepend before).append after).prepend _

end ServiceContract.Python
