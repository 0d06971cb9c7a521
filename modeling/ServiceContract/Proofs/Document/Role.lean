import ServiceContract.Contract.Build
import ServiceContract.Proofs.Document.WithNull

/-!
# What the nodes of a document are read as

A node of a document is read as a schema, as a parameter, as a value, and so on. It depends on what
the node around it is read as and on the key at which it stands, or on what refers to it. In another
document in which a set of schemas allows null, each node that is read has a *counterpart*, if these
are read as nothing but schemas.

## Main definitions

* `SameKey`: pairs with the same key and related values.
* `Role`: what nodes are read as, with `Role.keys`, `Role.entries` and `Role.items` for what they
  hold.
* `Document.Reads`: the nodes of a document that are read, and as what.
* `Document.survey`: a test of all nodes that are read, step by step from the root.
* `Document.AllowsNull`: sets of schemas that may allow null, with the test `Document.passes` for
  them.
* `Document.Counterpart`: a node that is read and its counterpart.

## Main results

* `Document.Reads.of_survey`: if a survey succeeds, all nodes that are read pass the test.
* `Document.Counterpart.get`, `Document.Counterpart.itemsIfAny`,
  `Document.Counterpart.entriesIfAny`: what is read from counterparts.
* `Document.AllowsNull.resolve`, `Document.AllowsNull.follow`: what they refer to.
-/

namespace ServiceContract

/-- Pairs with the same key and related values. -/
inductive SameKey {κ α β : Type} (R : α → β → Prop) : κ × α → κ × β → Prop
  | mk (key : κ) {a : α} {b : β} (h : R a b) : SameKey R (key, a) (key, b)

namespace SameKey

variable {κ α β : Type} {R : α → β → Prop} {e : κ × α} {e' : κ × β}

theorem value (h : SameKey R e e') : R e.2 e'.2 := by
  obtain ⟨key, h⟩ := h
  exact h

/-- The pairs whose keys pass a test. -/
theorem filter {es : List (κ × α)} {es' : List (κ × β)} (h : List.Forall₂ (SameKey R) es es')
    (p : κ → Bool) :
    List.Forall₂ (SameKey R) (es.filter fun e => p e.1) (es'.filter fun e => p e.1) := by
  refine List.rel_filter (fun e e' he => ?_) h
  obtain ⟨key, _⟩ := he
  rfl

end SameKey

/-- What a node is read as. -/
inductive Role where
  | document
  | info
  | paths
  | pathItem
  | operation
  | parameters
  | parameter
  | responses
  | response
  | body
  | content
  | media
  | schemas
  | schema
  | properties
  /-- A pair of a key and a schema, where the properties are a list of such pairs. -/
  | property
  | values
  | value
deriving DecidableEq

namespace Role

/-- The keys at which something is read, and what it is read as. -/
def keys : Role → List (String × Role)
  | .document => [("info", .info), ("paths", .paths)]
  | .info => [("title", .value), ("version", .value)]
  | .pathItem => ("parameters", .parameters) :: httpMethods.map fun httpMethod =>
    (httpMethod, .operation)
  | .operation =>
    [("operationId", .value), ("parameters", .parameters), ("responses", .responses),
      ("requestBody", .body)]
  | .parameter => [("name", .value), ("in", .value), ("schema", .schema)]
  | .response => [("content", .content)]
  | .body => [("content", .content)]
  | .media => [("schema", .schema)]
  | .schema =>
    [("allOf", .schemas), ("oneOf", .schemas), ("anyOf", .schemas), ("items", .schema),
      ("additionalProperties", .schema), ("properties", .properties), ("enum", .values),
      ("type", .values), ("default", .value)]
  | _ => []

/-- What the entries of a map are read as, where all of them are. -/
def entries : Role → List Role
  | .paths => [.pathItem]
  | .responses => [.response]
  | .content => [.media]
  | .properties => [.schema]
  | _ => []

/-- What the items of a list are read as. -/
def items : Role → List Role
  | .parameters => [.parameter]
  | .responses => [.response, .value]
  | .schemas => [.schema]
  | .properties => [.property]
  | .property => [.schema]
  | .values => [.value]
  | _ => []

/-- Whether a reference may stand in place of the node. -/
def refers : Role → Bool
  | .parameter | .response | .body | .schema => true
  | _ => false

end Role

namespace Document

/-- The nodes that are read, and what they are read as. A node that counts as absent may be read as
the empty map. -/
inductive Reads (doc : Document) : Role → Node → Prop
  | root : Reads doc .document doc.root
  | empty (role : Role) : Reads doc role .empty
  | key {role role' : Role} {n m : Node} {key : String} (h : Reads doc role n)
    (hkey : (key, role') ∈ role.keys) (hm : n.get key = .ok m) : Reads doc role' m
  | entry {role role' : Role} {n : Node} {es : List (Scalar × Node)} {e : Scalar × Node}
    (h : Reads doc role n) (hrole : role' ∈ role.entries) (hes : n.entries = .ok es) (he : e ∈ es) :
    Reads doc role' e.2
  | item {role role' : Role} {n m : Node} {ns : List Node} (h : Reads doc role n)
    (hrole : role' ∈ role.items) (hns : n.items = .ok ns) (hm : m ∈ ns) : Reads doc role' m
  | refer {role : Role} {n m value : Node} {ref : String} (h : Reads doc role n)
    (hrole : role.refers = true) (hvalue : n.get "$ref" = .ok value)
    (htext : value.asText = .ok ref) (hm : doc.resolve ref = .ok m) :
    Reads doc role m

/-- Whether a node and all that is read from it, at most `fuel` steps further, pass a test. -/
def survey (doc : Document) (test : Role → Node → Bool) : Nat → Role → Node → Bool
  | 0, _, _ => false
  | fuel + 1, role, n =>
    test role n &&
      (role.keys.all fun k => (n.get k.1).toOption.all (doc.survey test fuel k.2)) &&
      (role.entries.all fun role' => n.entries.toOption.all fun es => es.all fun e =>
        doc.survey test fuel role' e.2) &&
      (role.items.all fun role' => n.items.toOption.all fun ns =>
        ns.all (doc.survey test fuel role')) &&
      (!role.refers ||
        (do doc.resolve (← (← n.get "$ref").asText) : Except Fault Node).toOption.all
        (doc.survey test fuel role))

/-- A survey that succeeds passes over all that is read from the node. -/
theorem survey_eq_true {doc : Document} {test : Role → Node → Bool} {fuel : Nat}
    {role : Role} {n : Node} (h : doc.survey test fuel role n = true) :
    test role n = true ∧ ∃ fuel,
      (∀ {key role' m}, (key, role') ∈ role.keys → n.get key = .ok m →
        doc.survey test fuel role' m = true) ∧
      (∀ {role' es e}, role' ∈ role.entries → n.entries = .ok es → e ∈ es →
        doc.survey test fuel role' e.2 = true) ∧
      (∀ {role' ns m}, role' ∈ role.items → n.items = .ok ns → m ∈ ns →
        doc.survey test fuel role' m = true) ∧
      (∀ {value ref m}, role.refers = true → n.get "$ref" = .ok value → value.asText = .ok ref →
        doc.resolve ref = .ok m → doc.survey test fuel role m = true) := by
  cases fuel with
  | zero => cases h
  | succ fuel =>
    rw [survey] at h
    simp only [Bool.and_eq_true, List.all_eq_true] at h
    obtain ⟨⟨⟨⟨htest, hkeys⟩, hentries⟩, hitems⟩, hrefers⟩ := h
    refine ⟨htest, fuel, fun hkey hm => ?_, fun hrole hes he => ?_, fun hrole hns hm => ?_,
      fun hrole hvalue htext hm => ?_⟩
    · have hchild := hkeys _ hkey
      rw [hm] at hchild
      exact hchild
    · have hchildren := hentries _ hrole
      rw [hes] at hchildren
      exact List.all_eq_true.mp hchildren _ he
    · have hchildren := hitems _ hrole
      rw [hns] at hchildren
      exact List.all_eq_true.mp hchildren _ hm
    · rw [hrole, hvalue, except_ok_bind, htext, except_ok_bind, hm] at hrefers
      exact hrefers

/-- If a survey of the root succeeds, all nodes that are read pass the test. -/
theorem Reads.of_survey {doc : Document} {test : Role → Node → Bool} (fuel : Nat)
    (hroot : doc.survey test fuel .document doc.root = true)
    (hempty : ∀ role, doc.survey test fuel role .empty = true) {role : Role} {n : Node}
    (h : doc.Reads role n) :
    test role n = true := by
  suffices hreads : ∃ fuel, doc.survey test fuel role n = true by
    obtain ⟨fuel, hfuel⟩ := hreads
    exact (survey_eq_true hfuel).1
  induction h with
  | root => exact ⟨fuel, hroot⟩
  | empty role => exact ⟨fuel, hempty role⟩
  | key _ hkey hm ih =>
    obtain ⟨_, hsurvey⟩ := ih
    obtain ⟨-, fuel, hkeys, -, -, -⟩ := survey_eq_true hsurvey
    exact ⟨fuel, hkeys hkey hm⟩
  | entry _ hrole hes he ih =>
    obtain ⟨_, hsurvey⟩ := ih
    obtain ⟨-, fuel, -, hentries, -, -⟩ := survey_eq_true hsurvey
    exact ⟨fuel, hentries hrole hes he⟩
  | item _ hrole hns hm ih =>
    obtain ⟨_, hsurvey⟩ := ih
    obtain ⟨-, fuel, -, -, hitems, -⟩ := survey_eq_true hsurvey
    exact ⟨fuel, hitems hrole hns hm⟩
  | refer _ hrole hvalue htext hm ih =>
    obtain ⟨_, hsurvey⟩ := ih
    obtain ⟨-, fuel, -, -, -, hrefers⟩ := survey_eq_true hsurvey
    exact ⟨fuel, hrefers hrole hvalue htext hm⟩

/-- The nodes at the given addresses are read as nothing but schemas, none of them stands in a
value, and with null for them no reference has a part that cannot be read, unless it had one
before. -/
structure AllowsNull (doc : Document) (S : Address → Bool) : Prop where
  schemas : ∀ {role n}, doc.Reads role n → S n.address = true → role = .schema
  values : ∀ {n}, doc.Reads .value n → (n.withNull S).toValue = n.toValue
  readable : ∀ {role n value ref}, doc.Reads role n → role.refers = true →
    n.get "$ref" = .ok value →
    value.asText = .ok ref → (doc.withNull S doc.size).resolve ref = .error .malformed →
    doc.resolve ref = .error .malformed

/-- A test for the nodes of a document in which schemas may allow null: only schemas are among them,
values are scalars or empty, and references stay readable. -/
def passes (S : Address → Bool) (doc : Document) (role : Role) (n : Node) : Bool :=
  (!S n.address || role == .schema) && (role != .value || n.isKeyLike || !n.isTruthy) &&
    (!role.refers || (do (← n.get "$ref").asText : Except Fault String).toOption.all fun ref =>
      match (doc.withNull S doc.size).resolve ref with
      | .error .malformed => false
      | _ => true)

theorem AllowsNull.of_passes {doc : Document} {S : Address → Bool}
    (h : ∀ {role n}, doc.Reads role n → doc.passes S role n = true) : doc.AllowsNull S where
  schemas hn haddress := by
    have hpasses := h hn
    rw [passes, haddress] at hpasses
    simp only [Bool.and_eq_true, Bool.not_true, Bool.false_or, beq_iff_eq] at hpasses
    exact hpasses.1.1
  values {n} hn := by
    have hpasses := h hn
    simp only [passes, Bool.and_eq_true] at hpasses
    have hblank : (n.isKeyLike || !n.isTruthy) = true := hpasses.1.2
    rcases n with _ | ⟨a, _ | _⟩ | ⟨a, _ | _⟩ | _
    · rfl
    · rfl
    · cases hblank
    · rfl
    · cases hblank
    · cases hblank
  readable {role n value ref} hn hrole hvalue htext hmalformed := by
    have hpasses := h hn
    simp only [passes, Bool.and_eq_true] at hpasses
    have hreadable := hpasses.2
    rw [hrole, hvalue, except_ok_bind, htext] at hreadable
    simp only [Bool.not_true, Bool.false_or, Except.toOption, Option.all_some,
      hmalformed] at hreadable
    cases hreadable

/-- A node that is read, and the same node in the document in which schemas allow null. -/
structure Counterpart (doc : Document) (S : Address → Bool) (role : Role) (n n' : Node) : Prop where
  reads : doc.Reads role n
  eq : n' = n.withNull S

variable {doc : Document} {S : Address → Bool} {role role' : Role} {n n' : Node} {key : String}

namespace Counterpart

theorem empty (role : Role) : doc.Counterpart S role .empty .empty := ⟨.empty role, rfl⟩

variable (h : doc.Counterpart S role n n')
include h

/-! ### What counterparts are -/

theorem address : n'.address = n.address := h.eq ▸ Node.address_withNull n

theorem isNull : n'.isNull = n.isNull := h.eq ▸ Node.isNull_withNull n

theorem isTruthy : n'.isTruthy = n.isTruthy := h.eq ▸ Node.isTruthy_withNull n

theorem asScalar : n'.asScalar = n.asScalar := h.eq ▸ Node.asScalar_withNull n

theorem has (key : String) : n'.has key = n.has key := h.eq ▸ Node.has_withNull key n

theorem hasAny (keys : List String) :
    n'.hasAny keys = n.hasAny keys := h.eq ▸ Node.hasAny_withNull keys n

/-! ### What counterparts hold -/

theorem orEmpty : doc.Counterpart S role n.orEmpty n'.orEmpty := by
  rw [h.eq, Node.orEmpty_withNull]
  refine ⟨?_, rfl⟩
  rw [Node.orEmpty]
  split_ifs
  · exact h.reads
  · exact .empty role

theorem get (hkey : (key, role') ∈ role.keys) (hne : key ≠ "type") :
    Corresponds (doc.Counterpart S role') (n.get key) (n'.get key) := by
  rw [h.eq, Node.get_withNull hne]
  exact (Corresponds.map _ _).mono fun m m' hm hm' => ⟨.key h.reads hkey hm, hm'⟩

/-- What stands at a key, whatever it is read as. -/
theorem get_eq (hne : key ≠ "type") : n'.get key = (n.get key).map (Node.withNull S) := by
  rw [h.eq, Node.get_withNull hne]

theorem get_trimmedText (hne : key ≠ "type") :
    (n'.get key >>= Node.trimmedText) = (n.get key >>= Node.trimmedText) := by
  rw [h.get_eq hne]
  cases n.get key with
  | error fault => rfl
  | ok m => exact Node.trimmedText_withNull m

theorem items (hrole : role' ∈ role.items) :
    Corresponds (List.Forall₂ (doc.Counterpart S role')) n.items n'.items := by
  rw [h.eq, Node.items_withNull]
  refine (Corresponds.map _ _).mono fun ns ns' hns hns' => ?_
  subst hns'
  rw [List.forall₂_map_right_iff]
  exact List.forall₂_same.mpr fun m hm => ⟨.item h.reads hrole hns hm, rfl⟩

theorem itemsIfAny (hrole : role' ∈ role.items) :
    Corresponds (List.Forall₂ (doc.Counterpart S role')) n.itemsIfAny n'.itemsIfAny := by
  rw [Node.itemsIfAny, Node.itemsIfAny, h.isTruthy]
  exact .ite (h.items hrole) (.ok .nil)

end Counterpart

namespace AllowsNull

variable (hS : doc.AllowsNull S)
include hS

theorem entries (h : doc.Counterpart S role n n') (hne : role ≠ .schema)
    (hrole : role' ∈ role.entries) :
    Corresponds (List.Forall₂ (SameKey (doc.Counterpart S role'))) n.entries n'.entries := by
  have haddress : S n.address = false := by
    rw [← Bool.not_eq_true]
    exact fun haddress => hne (hS.schemas h.reads haddress)
  rw [h.eq, Node.entries_withNull haddress]
  refine (Corresponds.map _ _).mono fun es es' hes hes' => ?_
  subst hes'
  rw [List.forall₂_map_right_iff]
  exact List.forall₂_same.mpr fun e he => .mk e.1 ⟨.entry h.reads hrole hes he, rfl⟩

theorem entriesIfAny (h : doc.Counterpart S role n n') (hne : role ≠ .schema)
    (hrole : role' ∈ role.entries) :
    Corresponds (List.Forall₂ (SameKey (doc.Counterpart S role'))) n.entriesIfAny
      n'.entriesIfAny := by
  rw [Node.entriesIfAny, Node.entriesIfAny, h.isTruthy]
  exact .ite (hS.entries h hne hrole) (.ok .nil)

/-- Values are the same. -/
theorem toValue (h : doc.Counterpart S .value n n') : n'.toValue = n.toValue := by
  rw [h.eq]
  exact hS.values h.reads

theorem map_toValue {ns ns' : List Node} (h : List.Forall₂ (doc.Counterpart S .value) ns ns') :
    ns'.map Node.toValue = ns.map Node.toValue := by
  induction h with
  | nil => rfl
  | cons h _ ih => rw [List.map_cons, List.map_cons, hS.toValue h, ih]

theorem get_toValue (h : doc.Counterpart S role n n') (hkey : (key, .value) ∈ role.keys)
    (hne : key ≠ "type") :
    (n'.get key).map Node.toValue = (n.get key).map Node.toValue := by
  rw [h.get_eq hne]
  cases hm : n.get key with
  | error fault => rfl
  | ok m => exact congrArg Except.ok (hS.values (.key h.reads hkey hm))

/-! ### References -/

theorem resolve {value : Node} {ref : String} (h : doc.Reads role n) (hrole : role.refers = true)
    (hvalue : n.get "$ref" = .ok value) (htext : value.asText = .ok ref) :
    Corresponds (doc.Counterpart S role) (doc.resolve ref)
      ((doc.withNull S doc.size).resolve ref) :=
  (doc.resolve_withNull doc.size (hS.readable h hrole hvalue htext)).mono fun _ _ hm hm' =>
    ⟨.refer h hrole hvalue htext hm, hm'⟩

theorem followFrom (fuel : Nat) (seen : List String) (h : doc.Counterpart S role n n')
    (hrole : role.refers = true) :
    Corresponds (doc.Counterpart S role) (doc.followFrom fuel seen n)
      ((doc.withNull S doc.size).followFrom fuel seen n') := by
  induction fuel generalizing seen n n' with
  | zero => exact .fault _
  | succ fuel ih =>
    rw [Document.followFrom, Document.followFrom, h.has, h.get_eq (by decide)]
    refine .bind_right fun isReference _ => .ite ?_ (.ok h)
    refine .bind_map fun value hvalue => ?_
    rw [Node.asText_withNull]
    refine .bind_right fun ref href => .ite (.ok h) ?_
    exact (hS.resolve h.reads hrole hvalue href).bind fun m m' _ hm => ih _ hm

/-- Chains of references from counterparts end at counterparts. -/
theorem follow (h : doc.Counterpart S role n n') (hrole : role.refers = true) :
    Corresponds (doc.Counterpart S role) (doc.follow n) ((doc.withNull S doc.size).follow n') :=
  hS.followFrom _ _ h hrole

end AllowsNull

end Document

end ServiceContract
