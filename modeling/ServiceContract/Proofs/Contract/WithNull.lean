import ServiceContract.Proofs.Contract.Resize
import ServiceContract.Proofs.Contract.Visit
import ServiceContract.Proofs.Operation.AllowsNull

/-!
# Contracts of documents whose schemas allow null

Whether a schema states its type by a text or as a list of the type and null makes no difference to
the contract, nor to the class of the fault if there is none. That is so for any set of schemas, as
long as no enumeration gets another type of values: this type is read off a text only, so that it is
that of texts for a list.

## Main results

* `Contract.build_withNull`: the contract does not depend on which schemas allow null.
-/

namespace ServiceContract

namespace Document

variable {doc : Document} {S : Address → Bool} {size : Nat}

/-! ### The size of the document -/

theorem Reads.of_resize {role : Role} {n : Node} (h : (doc.resize size).Reads role n) :
    doc.Reads role n := by
  induction h with
  | root => exact .root
  | empty role => exact .empty role
  | key _ hkey hm ih => exact .key ih hkey hm
  | entry _ hrole hes he ih => exact .entry ih hrole hes he
  | item _ hrole hns hm ih => exact .item ih hrole hns hm
  | refer _ hrole hvalue htext hm ih => exact .refer ih hrole hvalue htext hm

theorem AllowsNull.resize (hS : doc.AllowsNull S) (size : Nat) :
    (doc.resize size).AllowsNull S where
  schemas h := hS.schemas h.of_resize
  values h := hS.values h.of_resize
  readable h := hS.readable h.of_resize

namespace AllowsNull

/-! ### The document as a whole -/

theorem claimComponents (ns : List Node) :
    Session.claimComponents (ns.map (Node.withNull S)) = Session.claimComponents ns := by
  induction ns with
  | nil => rfl
  | cons n ns ih =>
    rw [List.map_cons, Session.claimComponents, Session.claimComponents, Node.asText_withNull, ih]

theorem start : Session.start (doc.withNull S size) = Session.start doc := by
  have hnodes : Session.componentNodes (doc.withNull S size) =
      (Session.componentNodes doc).map (List.map (Node.withNull S)) := by
    unfold Session.componentNodes
    change ((doc.root.withNull S).get "components" >>= _) = _
    rw [Node.get_withNull (by decide : "components" ≠ "type")]
    cases doc.root.get "components" with
    | error fault => rfl
    | ok components =>
      simp only [Except.map, except_ok_bind, Node.orEmpty_withNull,
        Node.get_withNull (by decide : "schemas" ≠ "type")]
      cases components.orEmpty.get "schemas" with
      | error fault => rfl
      | ok schemas => exact Node.itemsIfAny_withNull schemas
  have hsteps :
      (do Session.claimComponents (← Session.componentNodes (doc.withNull S size)) : Build Unit) =
      (do Session.claimComponents (← Session.componentNodes doc) : Build Unit) := by
    rw [hnodes]
    cases Session.componentNodes doc with
    | error fault => rfl
    | ok ns => exact claimComponents ns
  rw [Session.start, Session.start, hsteps]

variable (hS : doc.AllowsNull S)
include hS

theorem infoText {key : String} (hkey : (key, .value) ∈ Role.keys .info) (hne : key ≠ "type") :
    ServiceContract.infoText (doc.withNull S size) key = ServiceContract.infoText doc key := by
  have hinfo : ("info", Role.info) ∈ Role.keys .document := by decide
  unfold ServiceContract.infoText
  change ((doc.root.withNull S).get "info" >>= _) = _
  rw [Node.get_withNull (by decide : "info" ≠ "type")]
  cases hget : doc.root.get "info" with
  | error fault => rfl
  | ok info =>
    have hreads : doc.Reads .info info.orEmpty :=
      (Counterpart.orEmpty ⟨.key .root hinfo hget, rfl⟩ :
        doc.Counterpart S .info info.orEmpty _).reads
    simp only [Except.map, except_ok_bind, Node.orEmpty_withNull, Node.get?_withNull hne]
    cases hfound : info.orEmpty.get? key with
    | error fault => rfl
    | ok found =>
      cases found with
      | none => rfl
      | some n =>
        have hn : info.orEmpty.get key = .ok n := by rw [Node.get, hfound]; rfl
        simp only [Option.map_some, except_ok_bind, hS.values (.key hreads hkey hn)]

theorem contractName (chosen : Option String) :
    ServiceContract.contractName (doc.withNull S size) chosen =
      ServiceContract.contractName doc chosen := by
  rw [ServiceContract.contractName, ServiceContract.contractName,
    hS.infoText (by decide) (by decide)]

theorem documentPaths :
    Corresponds (List.Forall₂ (SameKey (doc.Counterpart S .pathItem)))
      (ServiceContract.documentPaths doc)
      (ServiceContract.documentPaths (doc.withNull S size)) := by
  have hpaths : ("paths", Role.paths) ∈ Role.keys .document := by decide
  have hroot : doc.Counterpart S .document doc.root (doc.withNull S size).root := ⟨.root, rfl⟩
  refine (hroot.get hpaths (by decide)).bind fun paths paths' _ hpaths => ?_
  exact hS.entriesIfAny hpaths (by decide) (List.mem_singleton.mpr rfl)

end AllowsNull

end Document

namespace Contract

open Document

variable {doc : Document} {S : Address → Bool} {options : Options}

/-- Under the same size the contract is the same whether schemas allow null or not. -/
theorem corresponds_withNull (hS : doc.AllowsNull S)
    (hkeeps : (resolver doc options).KeepsEnumerations S) :
    Corresponds Eq (build doc options) (build (doc.withNull S doc.size) options) := by
  rw [build_eq, build_eq, hS.contractName, hS.infoText (by decide) (by decide),
    hS.infoText (by decide) (by decide), AllowsNull.start]
  refine .bind_right fun name _ => .bind_right fun title _ => .bind_right fun version _ => ?_
  refine .bind_right fun start _ => hS.documentPaths.bind fun paths paths' _ hpaths => ?_
  rcases AllowsNull.buildPaths (r := resolver doc options) hS hkeeps options.includeResponse
    hpaths start with
    hsame | ⟨f, g, s, t, hf, hg, hclass⟩
  · rw [hsame]
    exact .refl (fun _ => rfl) _
  · have hclass' : Corresponds Eq (ofRun name title version options.isInterface (.error f, s))
        (ofRun name title version options.isInterface (.error g, t)) := .error hclass
    rw [← hf, ← hg] at hclass'
    exact hclass'

/-- The contract does not depend on which schemas allow null, nor does the class of the fault if
there is no contract, as long as no enumeration gets another type of values. The document in which
schemas allow null may be larger; without links in the document the same goes for what is
endless. -/
theorem build_withNull (hS : doc.AllowsNull S)
    (hkeeps : (resolver doc options).KeepsEnumerations S) {size : Nat} (hsize : doc.size ≤ size)
    (hends : doc.IsTree ∨ build doc options ≠ .error .endless) :
    Corresponds Eq (build doc options) (build (doc.withNull S size) options) := by
  have hsame : build doc options = build (doc.resize size) options := by
    rcases hends with htree | hends
    · exact build_resize_of_isTree htree hsize options
    · exact ((build_resize hsize options).resolve_left hends).symm
  have hkeeps' : (resolver (doc.resize size) options).KeepsEnumerations S := fun _ h =>
    hkeeps h.of_resize
  rw [hsame]
  exact corresponds_withNull (hS.resize size) hkeeps'

end Contract

/-! ### Schemas of all kinds -/

/-- The addresses of the nodes that state a type. -/
def Document.statesType (doc : Document) (a : Address) : Bool :=
  doc.root.subnodes.any fun n => n.address == a &&
    (n.get "type").toOption.any fun type => !type.isNull

/-- A test for the nodes of a document in which no enumeration gets another type of values. -/
def Resolver.keeps (S : Address → Bool) (r : Resolver) (role : Role) (n : Node) : Bool :=
  role != .schema || (n.has "enum").toOption != some true ||
    (r.enumValueType n).toOption.any fun type =>
    (r.enumValueType (n.withNull S)).toOption == some type

theorem Resolver.KeepsEnumerations.of_keeps {r : Resolver} {S : Address → Bool}
    (h : ∀ {role n}, r.doc.Reads role n → r.keeps S role n = true) : r.KeepsEnumerations S := by
  intro schema hn henum
  have hkeeps := h hn
  rw [keeps, henum] at hkeeps
  simp only [bne_self_eq_false, Except.toOption, Bool.false_or] at hkeeps
  cases htype : r.enumValueType schema with
  | error fault =>
    rw [htype] at hkeeps
    cases hkeeps
  | ok type =>
    rw [htype] at hkeeps
    cases htype' : r.enumValueType (schema.withNull S) with
    | error fault =>
      rw [htype'] at hkeeps
      cases hkeeps
    | ok type' =>
      rw [htype'] at hkeeps
      simp only [Option.any_some, beq_iff_eq, Option.some.injEq] at hkeeps
      rw [hkeeps]

namespace Contract

/-- A text as a value. -/
def textValue (t : String) : Value := .scalar (.text t)

/-- A map with texts as keys. -/
def mapValue (es : List (String × Value)) : Value := .map (textual es)

/-- A type as a schema states it, by a text or as a list with null. -/
def typeValue (allowsNull : Bool) (t : String) : Value :=
  if allowsNull then .list [textValue t, textValue "null"] else textValue t

/-- A record with an enumeration of texts and a date. -/
def petSchema (allowsNull : Bool) : Value :=
  mapValue [
    ("type", typeValue allowsNull "object"),
    ("properties", mapValue [
      ("kind", mapValue [
        ("type", typeValue allowsNull "string"),
        ("enum", .list [textValue "cat", textValue "dog"])]),
      ("born", mapValue [("type", typeValue allowsNull "string"), ("format", textValue "date")])])]

/-- A parameter in the query. -/
def queryParameter (name : String) (schema : Value) : Value :=
  mapValue [("name", textValue name), ("in", textValue "query"), ("schema", schema)]

/-- An operation with a number as parameter and a list of records as result. -/
def petsOperation (allowsNull : Bool) : Value :=
  mapValue [
    ("operationId", textValue "listPets"),
    ("parameters",
      .list [queryParameter "limit" (mapValue [("type", typeValue allowsNull "integer")])]),
    ("responses", mapValue [("200", mapValue [("content", mapValue [("application/json", mapValue [
      ("schema", mapValue [
        ("type", typeValue allowsNull "array"),
        ("items", .ofReference "#/components/schemas/Pet")])])])])])]

/-- The document with that operation and that record. -/
def petsDocument (allowsNull : Bool) : Document :=
  .ofValue (mapValue [
    ("paths", mapValue [("/pets", mapValue [("get", petsOperation allowsNull)])]),
    ("components", mapValue [("schemas", mapValue [("Pet", petSchema allowsNull)])])])

/-- The contract is the same if all schemas allow null. -/
theorem build_withNull_pets :
    (petsDocument false).withNull (petsDocument false).statesType (petsDocument true).size =
      petsDocument true ∧
      ∃ c, build (petsDocument false) .standard = .ok c ∧
        build (petsDocument true) .standard = .ok c := by
  have hdoc : (petsDocument false).withNull (petsDocument false).statesType
      (petsDocument true).size = petsDocument true := rfl
  have hS : (petsDocument false).AllowsNull (petsDocument false).statesType :=
    .of_passes fun h => h.of_survey 20 (by decide +kernel) (by rintro ⟨⟩ <;> decide +kernel)
  have hkeeps : (resolver (petsDocument false) .standard).KeepsEnumerations
      (petsDocument false).statesType :=
    .of_keeps fun h => h.of_survey 20 (by decide +kernel) (by rintro ⟨⟩ <;> decide +kernel)
  have hbuild : ((build (petsDocument false) .standard).toOption.any fun _ => true) =
      true := by decide +kernel
  obtain ⟨c, hc, -⟩ := exists_of_any hbuild
  have hsame : Corresponds Eq (build (petsDocument false) .standard)
      (build (petsDocument true) .standard) :=
    hdoc ▸ build_withNull hS hkeeps (by decide +kernel) (.inl (Document.isTree_ofValue _))
  rw [hc] at hsame
  generalize build (petsDocument true) .standard = result at hsame
  cases hsame with
  | ok heq => exact ⟨hdoc, c, hc, congrArg Except.ok heq.symm⟩

/-- A document with an enumeration of numbers, which is the schema of a parameter. -/
def levelsDocument (allowsNull : Bool) : Document :=
  .ofValue (mapValue [("paths", mapValue [("/levels", mapValue [("get", mapValue [
    ("operationId", textValue "getLevels"),
    ("parameters", .list [queryParameter "level" (mapValue [
      ("type", typeValue allowsNull "integer"),
      ("enum", .list [.scalar (.int 1), .scalar (.int 2)])])])])])])])

/-- Whether a contract declares nothing but one enumeration, with values of the given type. -/
def enumerates (type : TypeExpr) (c : Contract) : Bool :=
  match c.declarations with
  | [.enumeration _ valueType _ _] => valueType == type
  | _ => false

theorem enumerates_unique {type type' : TypeExpr} {c : Contract} (h : enumerates type c = true)
    (h' : enumerates type' c = true) : type = type' := by
  unfold enumerates at h h'
  split at h
  · rename_i hdeclarations
    rw [hdeclarations] at h'
    exact (beq_iff_eq.mp h).symm.trans (beq_iff_eq.mp h')
  · cases h

/-- The values of the enumeration are numbers, but texts if it allows null. -/
theorem not_build_withNull_levels :
    (levelsDocument false).withNull (levelsDocument false).statesType (levelsDocument true).size =
        levelsDocument true ∧
      (levelsDocument false).AllowsNull (levelsDocument false).statesType ∧
      ¬ Corresponds Eq (build (levelsDocument false) .standard)
        (build (levelsDocument true) .standard) := by
  refine ⟨rfl, .of_passes fun h =>
    h.of_survey 20 (by decide +kernel) (by rintro ⟨⟩ <;> decide +kernel), ?_⟩
  have hnumbers :
      ((build (levelsDocument false) .standard).toOption.any (enumerates (.primitive "int"))) =
        true := by
    decide +kernel
  have htexts :
      ((build (levelsDocument true) .standard).toOption.any (enumerates (.primitive "str"))) =
        true := by
    decide +kernel
  obtain ⟨c, hc, hnumbers⟩ := exists_of_any hnumbers
  obtain ⟨c', hc', htexts⟩ := exists_of_any htexts
  rw [hc, hc']
  rintro (rfl | _)
  exact absurd (enumerates_unique hnumbers htexts) (by decide)

end Contract

end ServiceContract
