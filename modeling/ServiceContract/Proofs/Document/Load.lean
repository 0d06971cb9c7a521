import ServiceContract.Document.Load
import ServiceContract.Proofs.Document.Fault
import ServiceContract.Proofs.Document.Json
import ServiceContract.Proofs.Document.Yaml.Read

/-!
# Documents of files

Whatever a file holds, the document that is loaded from it is well-formed, if those are that the
reader of YAML gives, as the ones of `Yaml.read` are. Where none is loaded, the fault lies in the
text and no place of a document is to blame.

## Main definitions

* `TextFaults`: a property that all faults of loading have.

## Main results

* `Document.wellFormed_of_load`, `Document.wellFormed_of_load_read`.
* `TextFaults.load`: the faults of loading.
-/

namespace ServiceContract

/-- Renaming the fault of a result does not change when it is none. -/
theorem except_mapError_eq_ok {ε ε' α : Type} {f : ε → ε'} {x : Except ε α} {a : α} :
    x.mapError f = .ok a ↔ x = .ok a := by
  cases x with
  | error fault => simp [Except.mapError]
  | ok b => simp [Except.mapError]

theorem except_mapError_eq_error {ε ε' α : Type} {f : ε → ε'} {x : Except ε α} {e : ε'} :
    x.mapError f = .error e ↔ ∃ e', x = .error e' ∧ f e' = e := by
  cases x with
  | error fault => simp [Except.mapError]
  | ok b => simp [Except.mapError]

/-- Documents that are loaded from files are well-formed, and have no more parts than their size
says, if this holds of those that are read from YAML. -/
theorem Document.wellFormed_of_load {readYaml : YamlReader}
    (hyaml : ∀ {text doc}, readYaml text = .ok doc → doc.WellFormed ∧ doc.Counted) {file : PathName}
    {content : String} {doc : Document} (h : load readYaml file content = .ok doc) :
    doc.WellFormed ∧ doc.Counted := by
  unfold load at h
  dsimp only at h
  split at h
  · cases h
  · split_ifs at h
    · obtain ⟨v, hv, h⟩ := except_bind_eq_ok.mp h
      cases h
      exact ⟨wellFormed_ofValue (Json.isKeyed_of_read hv), (isTree_ofValue v).counted⟩
    · exact hyaml (except_mapError_eq_ok.mp h)

/-- Documents of files are well-formed, with the reader of YAML of this library. -/
theorem Document.wellFormed_of_load_read {file : PathName} {content : String} {doc : Document}
    (h : load Yaml.read file content = .ok doc) : doc.WellFormed ∧ doc.Counted :=
  wellFormed_of_load Yaml.wellFormed_of_read h

/-! ### Faults -/

/-- The fault of loading a document has the property `P`. -/
structure TextFaults (P : Fault → Prop) : Prop extends KindFaults P where
  invalidJson : P .invalidJson
  invalidYaml : P .invalidYaml
  endless : P .endless

namespace TextFaults

variable {P : Fault → Prop} (hP : TextFaults P)
include hP

theorem readMagnitude (negative : Bool) (s : List Char) :
    FailsWith P (Json.readMagnitude negative s) := by
  unfold Json.readMagnitude
  refine .ite (fun _ => .error hP.invalidJson) fun _ => ?_
  dsimp only
  split
  · exact .ite (fun _ => .error hP.malformed) fun _ => .ok _
  · exact .ok _

theorem readNumber (s : List Char) : FailsWith P (Json.readNumber s) := by
  unfold Json.readNumber
  split
  · exact hP.readMagnitude true _
  · exact hP.readMagnitude false _

theorem readUnits (units : List Nat) (s : List Char) : FailsWith P (Json.readUnits units s) := by
  fun_induction Json.readUnits units s with
  | case1 => exact .error hP.invalidJson
  | case2 => exact .ok _
  | case3 => exact .error hP.invalidJson
  | case4 _ _ _ _ _ _ _ _ ih => exact ih
  | case5 => exact .error hP.invalidJson
  | case6 _ _ _ _ _ _ ih => exact ih
  | case7 => exact .error hP.invalidJson
  | case8 _ _ _ _ _ _ _ ih => exact ih

theorem readText (s : List Char) : FailsWith P (Json.readText s) :=
  (hP.readUnits [] s).bind fun _ _ => .ok _

/-- The readers of parts fail with the faults of texts, whatever bounds the parts. -/
theorem readValue (fuel : Nat) :
    (∀ s, FailsWith P (Json.readValue fuel s)) ∧ (∀ s, FailsWith P (Json.readItems fuel s)) ∧
      ∀ entries s, FailsWith P (Json.readEntries fuel entries s) := by
  induction fuel with
  | zero =>
    exact ⟨fun _ => .error hP.invalidJson, fun _ => .error hP.invalidJson, fun _ _ =>
      .error hP.invalidJson⟩
  | succ fuel ih =>
    obtain ⟨value, items, entries⟩ := ih
    refine ⟨fun s => ?_, fun s => ?_, fun es s => ?_⟩
    · unfold Json.readValue
      split
      · exact (hP.readText _).bind fun _ _ => .ok _
      · split
        · exact .ok _
        · exact (entries _ _).bind fun _ _ => .ok _
      · split
        · exact .ok _
        · exact (items _).bind fun _ _ => .ok _
      iterate 6 exact .ok _
      exact hP.readNumber _
    · unfold Json.readItems
      refine (value s).bind fun read _ => ?_
      obtain ⟨v, rest⟩ := read
      dsimp only
      split
      · exact (items _).bind fun _ _ => .ok _
      · exact .ok _
      · exact .error hP.invalidJson
    · unfold Json.readEntries
      split
      · refine (hP.readText _).bind fun read _ => ?_
        obtain ⟨key, rest⟩ := read
        dsimp only
        split
        · refine (value _).bind fun read _ => ?_
          obtain ⟨v, rest⟩ := read
          dsimp only
          split
          · exact entries _ _
          · exact .ok _
          · exact .error hP.invalidJson
        · exact .error hP.invalidJson
      · exact .error hP.invalidJson

/-- A text that is no JSON has a fault of texts. -/
theorem readJson (text : String) : FailsWith P (Json.read text) :=
  ((hP.readValue _).1 _).bind fun read _ => by
    obtain ⟨v, rest⟩ := read
    exact .ite (fun _ => .ok _) fun _ => .error hP.invalidJson

/-- A text that is no YAML has a fault of texts, whatever reads it. -/
theorem toFault (fault : Yaml.ReadFault) : P fault.toFault := by
  cases fault with
  | invalidYaml => exact hP.invalidYaml
  | malformed => exact hP.malformed
  | endless => exact hP.endless

/-- A file whose document cannot be loaded has a fault of texts. -/
theorem load (readYaml : YamlReader) (file : PathName) (content : String) :
    FailsWith P (Document.load readYaml file content) := by
  unfold Document.load
  dsimp only
  split
  · exact .error hP.malformed
  · refine .ite (fun _ => (hP.readJson _).bind fun _ _ => .ok _) fun _ fault h => ?_
    obtain ⟨f, -, rfl⟩ := except_mapError_eq_error.mp h
    exact hP.toFault f

end TextFaults

end ServiceContract
