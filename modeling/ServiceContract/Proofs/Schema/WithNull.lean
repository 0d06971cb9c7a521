import ServiceContract.Proofs.Document.Role
import ServiceContract.Proofs.Schema.Form

/-!
# Schemas that allow null

A schema that allows null asks for the same as before, up to the schemas inside: a list of a type
and null counts as the type. So it has the same form and leads to the same target, and it is
declared from the same blueprint unless it is an enumeration: the type of its values is read off a
text only.

## Main definitions

* `Node.SameStated`: stated types that count as the same.
* `SchemaForm.Counterpart`, `Shape.Counterpart`, `Blueprint.Counterpart`: what counterparts say.
* `Resolver.KeepsEnumerations`: schemas among which no enumeration gets another type of values.

## Main results

* `Document.AllowsNull.form`, `Document.AllowsNull.target`, `Document.AllowsNull.blueprint`:
  counterparts say the same, up to the schemas inside.
-/

namespace ServiceContract

open Document

variable {doc : Document} {S : Address → Bool} {n n' schema schema' : Node}

/-! ### Wrappers -/

namespace Node

/-- Among counterparts the same ones pass a test. -/
theorem keepIf_counterpart {role : Role} {test : Node → Except Fault Bool} {ns ns' : List Node}
    (h : List.Forall₂ (doc.Counterpart S role) ns ns')
    (htest : ∀ {n n'}, doc.Counterpart S role n n' → Corresponds Eq (test n) (test n')) :
    Corresponds (List.Forall₂ (doc.Counterpart S role)) (keepIf test ns) (keepIf test ns') := by
  induction h with
  | nil => exact .ok .nil
  | cons h _ ih =>
    refine (htest h).bind fun keep keep' _ hkeep => ih.bind fun rest rest' _ hrest => ?_
    subst hkeep
    cases keep with
    | true => exact .ok (.cons h hrest)
    | false => exact .ok hrest

theorem StatedAs.isText_null {m m' : Node} (h : StatedAs S m m') :
    m'.isText "null" = m.isText "null" := by
  cases h with
  | same => exact isText_withNull "null" m
  | list _ _ _ _ ht => exact (beq_eq_false_iff_ne.mpr ht).symm

end Node

namespace Document.Counterpart

variable (h : doc.Counterpart S .schema n n')
include h

theorem get_type : Corresponds (Node.StatedAs S) (n.get "type") (n'.get "type") :=
  h.eq ▸ Node.get_type_withNull n

theorem get_properties :
    Corresponds (doc.Counterpart S .properties) (n.get "properties") (n'.get "properties") :=
  h.get (by decide : ("properties", Role.properties) ∈ Role.keys .schema) (by decide)

theorem isNullSchema : Corresponds Eq n.isNullSchema n'.isNullSchema :=
  h.get_type.bind fun _ _ _ hstated => .ok hstated.isText_null.symm

theorem alternatives {keyword : String} (hkey : (keyword, .schemas) ∈ Role.keys .schema)
    (hne : keyword ≠ "type") :
    Corresponds (List.Forall₂ (doc.Counterpart S .schema)) (n.alternatives keyword)
      (n'.alternatives keyword) := by
  refine (h.get hkey hne).bind fun value value' _ hvalue => ?_
  refine (hvalue.items (List.mem_singleton.mpr rfl)).bind fun ns ns' _ hns => ?_
  refine Node.keepIf_counterpart hns fun h => h.isNullSchema.bind fun isNull isNull' _ hnull => ?_
  subst hnull
  exact .ok rfl

theorem shapedMembers :
    Corresponds (List.Forall₂ (doc.Counterpart S .schema)) n.shapedMembers n'.shapedMembers := by
  have hkey : ("allOf", Role.schemas) ∈ Role.keys .schema := by decide
  refine (h.get hkey (by decide)).bind fun value value' _ hvalue => ?_
  refine (hvalue.items (List.mem_singleton.mpr rfl)).bind fun ns ns' _ hns => ?_
  refine Node.keepIf_counterpart hns fun h => ?_
  rw [h.hasAny]
  exact .refl (fun _ => rfl) _

theorem onlyAlternative {keyword : String} (hkey : (keyword, .schemas) ∈ Role.keys .schema)
    (hne : keyword ≠ "type") (label : String) :
    Corresponds (doc.Counterpart S .schema) (n.onlyAlternative keyword label)
      (n'.onlyAlternative keyword label) := by
  refine (h.alternatives hkey hne).bind fun ns ns' _ hns => ?_
  rcases hns with _ | ⟨hbranch, _ | ⟨_, hrest⟩⟩
  · exact .fault _
  · exact .ok hbranch
  · simp only [List.length_cons, hrest.length_eq]
    exact .fault _

theorem stripLayer (label : String) :
    Corresponds (Option.Rel (doc.Counterpart S .schema)) (n.stripLayer label)
      (n'.stripLayer label) := by
  have hone : ("oneOf", Role.schemas) ∈ Role.keys .schema := by decide
  have hany : ("anyOf", Role.schemas) ∈ Role.keys .schema := by decide
  unfold Node.stripLayer
  rw [h.has, h.has, h.has, h.has]
  refine .bind_right fun isReference _ => .ite (.ok .none) ?_
  refine .bind_right fun hasMembers _ => .ite ?_ ?_
  · refine h.get_properties.bind fun properties properties' _ hproperties => ?_
    rw [hproperties.isTruthy]
    refine .ite (.ok .none) (h.shapedMembers.bind fun members members' _ hmembers => ?_)
    rcases hmembers with _ | ⟨hmember, _ | ⟨_, _⟩⟩
    · exact .ok (.some (.empty .schema))
    · exact .ok (.some hmember)
    · exact .ok .none
  refine .bind_right fun hasOne _ => .ite ?_ ?_
  · exact (h.onlyAlternative hone (by decide) label).bind fun _ _ _ hbranch => .ok (.some hbranch)
  refine .bind_right fun hasAny _ => .ite ?_ (.ok .none)
  exact (h.onlyAlternative hany (by decide) label).bind fun _ _ _ hbranch => .ok (.some hbranch)

theorem unwrapWithin (label : String) (fuel : Nat) :
    Corresponds (doc.Counterpart S .schema) (n.unwrapWithin label fuel)
      (n'.unwrapWithin label fuel) := by
  induction fuel generalizing n n' with
  | zero => exact .fault _
  | succ fuel ih =>
    refine (h.stripLayer label).bind fun layer layer' _ hlayer => ?_
    cases hlayer with
    | none => exact .ok h
    | some hinner => exact ih hinner

theorem unwrap (label : String) :
    Corresponds (doc.Counterpart S .schema) (doc.unwrap n label)
      ((doc.withNull S doc.size).unwrap n' label) :=
  h.unwrapWithin label _

/-! ### What schemas declare -/

theorem declaresType : Corresponds Eq n.declaresType n'.declaresType := by
  unfold Node.declaresType
  rw [h.has, h.hasAny]
  refine .bind_right fun isReference _ => .ite (.ok rfl) ?_
  refine .bind_right fun declares _ => .ite (.ok rfl) ?_
  exact h.get_properties.bind fun _ _ _ hproperties => .ok hproperties.isTruthy.symm

end Document.Counterpart

/-! ### Stated types -/

/-- Stated types that count as the same: a node that stands for itself, or one text at two
addresses. -/
inductive Node.SameStated (S : Address → Bool) : Node → Node → Prop
  | same (n : Node) : SameStated S n (n.withNull S)
  | text (a b : Address) (t : String) : SameStated S (.leaf a (.text t)) (.leaf b (.text t))

/-- The built-in type for a text and a format. -/
theorem PrimitiveTable.lookup_text_withNull (table : PrimitiveTable) (a b : Address) (t : String)
    (format : Node) :
    table.lookup (.leaf b (.text t)) (format.withNull S) =
      table.lookup (.leaf a (.text t)) format := by
  unfold PrimitiveTable.lookup
  rw [Node.isTruthy_withNull, Node.isKeyLike_withNull]
  congr 1
  cases format with
  | leaf c v => cases v <;> rfl
  | _ => rfl

namespace Node.SameStated

variable {type type' : Node} (h : SameStated S type type')
include h

theorem isNull : type'.isNull = type.isNull := by
  cases h with
  | same => exact isNull_withNull type
  | text => rfl

theorem isText (t : String) : type'.isText t = type.isText t := by
  cases h with
  | same => exact isText_withNull t type
  | text => rfl

/-- They have the same built-in type. -/
theorem lookup (table : PrimitiveTable) (format : Node) :
    table.lookup type' (format.withNull S) = table.lookup type format := by
  cases h with
  | text a b t => exact PrimitiveTable.lookup_text_withNull table a b t format
  | same =>
    cases type with
    | leaf a v =>
      cases v with
      | text t => exact PrimitiveTable.lookup_text_withNull table a a t format
      | _ =>
        unfold PrimitiveTable.lookup
        rw [isTruthy_withNull, isKeyLike_withNull, isKeyLike_withNull]
        rfl
    | _ => rfl

/-- What may be named is the same value. -/
theorem toValue_of_isKeyLike (hkey : type.isKeyLike = true) : type'.toValue = type.toValue := by
  cases h with
  | text => rfl
  | same =>
    cases type with
    | leaf a v => rfl
    | _ => cases hkey

end Node.SameStated

/-- Only what may be named is looked up. -/
theorem PrimitiveTable.isKeyLike_of_lookup {table : PrimitiveTable} {type format : Node}
    {found : Option String} (h : table.lookup type format = .ok found) : type.isKeyLike = true := by
  unfold PrimitiveTable.lookup at h
  split_ifs at h with hkey
  rw [Bool.or_eq_true, not_or, Bool.not_eq_true, Bool.not_eq_false'] at hkey
  exact hkey.1

namespace Document.AllowsNull

variable (hS : doc.AllowsNull S) (h : doc.Counterpart S .schema n n')
include hS h

theorem statedType (label : String) :
    Corresponds (Node.SameStated S) (n.statedType label) (n'.statedType label) := by
  refine h.get_type.bind fun type type' htype hstated => ?_
  cases hstated with
  | @list a b b' b'' t ht =>
    have hfilter : [Node.leaf b' (.text t), .leaf b'' (.text "null")].filter
        (fun type => !type.isText "null") = [.leaf b' (.text t)] := by
      have hother : (Node.leaf b' (.text t)).isText "null" = false := beq_eq_false_iff_ne.mpr ht
      have hnull : (Node.leaf b'' (.text "null")).isText "null" = true := rfl
      simp [hother, hnull]
    have hitems : (Node.list b [.leaf b' (.text t), .leaf b'' (.text "null")]).items =
        .ok [.leaf b' (.text t), .leaf b'' (.text "null")] := rfl
    rw [hitems, except_ok_bind, hfilter]
    exact .ok (.text a b' t)
  | same =>
    have hvalues : doc.Counterpart S .values type (type.withNull S) :=
      ⟨.key h.reads (by decide) htype, rfl⟩
    rw [Node.isList_withNull]
    refine .ite (.ok (.same type)) ?_
    refine (hvalues.items (List.mem_singleton.mpr rfl)).bind fun ns ns' _ hns => ?_
    have htypes : List.Forall₂ (doc.Counterpart S .value) (ns.filter fun t => !t.isText "null")
        (ns'.filter fun t => !t.isText "null") := by
      refine List.rel_filter (fun m m' hm => ?_) hns
      dsimp only
      rw [hm.eq, Node.isText_withNull]
    revert htypes
    generalize ns.filter (fun t => !t.isText "null") = types
    generalize ns'.filter (fun t => !t.isText "null") = types'
    intro htypes
    rcases htypes with _ | ⟨htype, _ | ⟨htype', hrest⟩⟩
    · exact .ok (.same .null)
    · rw [htype.eq]
      exact .ok (.same _)
    · -- The fault mentions the types as values, and no schema stands in these.
      have hvalues := hS.map_toValue (.cons htype (.cons htype' hrest))
      dsimp only
      rw [hvalues]
      exact .bind_right fun text _ => .fault _

theorem isObjectLike (label : String) :
    Corresponds Eq (n.isObjectLike label) (n'.isObjectLike label) := by
  unfold Node.isObjectLike
  rw [h.hasAny]
  refine .bind_right fun isOther _ => .ite (.ok rfl) ?_
  refine (hS.statedType h label).bind fun type type' _ htype => .ok ?_
  rw [htype.isNull, htype.isText]

end Document.AllowsNull

/-! ### Forms -/

/-- The forms are the same, up to the schemas that they speak of. -/
inductive SchemaForm.Counterpart (doc : Document) (S : Address → Bool) :
    SchemaForm → SchemaForm → Prop
  | absent : Counterpart doc S .absent .absent
  | reference (ref : String) : Counterpart doc S (.reference ref) (.reference ref)
  | wrapper {inner inner' : Node} (h : doc.Counterpart S .schema inner inner') :
    Counterpart doc S (.wrapper inner) (.wrapper inner')
  | inline : Counterpart doc S .inline .inline
  | list {items items' : Node} (h : doc.Counterpart S .schema items items') :
    Counterpart doc S (.list items) (.list items')
  | map {values values' : Node} (h : doc.Counterpart S .schema values values') :
    Counterpart doc S (.map values) (.map values')
  | primitive (name : String) : Counterpart doc S (.primitive name) (.primitive name)

/-- The resolver for the document in which the schemas at the given addresses allow null. -/
def Resolver.withNull (S : Address → Bool) (r : Resolver) : Resolver :=
  { r with doc := r.doc.withNull S r.doc.size }

namespace Document.AllowsNull

variable {r : Resolver} (hS : r.doc.AllowsNull S) (h : r.doc.Counterpart S .schema n n')
include hS h

omit hS in
theorem objectForm :
    Corresponds (SchemaForm.Counterpart r.doc S) (r.objectForm n)
      ((r.withNull S).objectForm n') := by
  have hvalues : ("additionalProperties", Role.schema) ∈ Role.keys .schema := by decide
  refine (h.get hvalues (by decide)).bind fun values values' _ hvalues => ?_
  have heq := hvalues.eq
  rcases values with _ | _ | ⟨a, _ | ⟨e, es⟩⟩ | _
  · rw [heq]
    exact .ok (.primitive _)
  · rw [heq]
    exact .ok (.primitive _)
  · rw [heq]
    exact .ok (.primitive _)
  · obtain ⟨e', es', hentries⟩ : ∃ e' es', (Node.map a (e :: es)).withNull S =
      .map a (e' :: es') := ⟨_, _, rfl⟩
    rw [hentries] at heq
    subst heq
    exact .ok (.map hvalues)
  · rw [heq]
    exact .ok (.primitive _)

theorem statedForm (label : String) :
    Corresponds (SchemaForm.Counterpart r.doc S) (r.statedForm n label)
      ((r.withNull S).statedForm n' label) := by
  have hitems : ("items", Role.schema) ∈ Role.keys .schema := by decide
  refine (hS.statedType h label).bind fun type type' _ htype => ?_
  rw [htype.isText, htype.isText, htype.isNull, h.has, h.get_eq (by decide : "format" ≠ "type")]
  refine .ite ?_ (.bind_right fun hasProperties _ => .ite ?_ (.ite (.ok (.primitive _)) ?_))
  · exact (h.get hitems (by decide)).bind fun _ _ _ hitems => .ok (.list hitems.orEmpty)
  · refine h.get_properties.bind fun properties properties' _ hproperties => ?_
    rw [hproperties.isTruthy]
    exact .ite (.ok .inline) (objectForm h)
  · refine .bind_map fun format _ => ?_
    rw [htype.lookup]
    refine .bind_right fun found hfound => ?_
    cases found with
    | some name => exact .ok (.primitive name)
    | none =>
      dsimp only
      rw [htype.toValue_of_isKeyLike (PrimitiveTable.isKeyLike_of_lookup hfound)]
      exact .bind_right fun text _ => .fault _

/-- Counterparts have the same form. -/
theorem form (label : String) :
    Corresponds (SchemaForm.Counterpart r.doc S) (r.form n label)
      ((r.withNull S).form n' label) := by
  unfold Resolver.form
  rw [h.isNull, h.has, h.has, h.has, h.has, h.get_eq (by decide : "$ref" ≠ "type")]
  refine .ite (.ok .absent) (.bind_right fun isReference _ => .ite ?_ ?_)
  · refine .bind_map fun value _ => ?_
    rw [Node.asText_withNull]
    exact .bind_right fun ref _ => .ok (.reference ref)
  refine (h.stripLayer label).bind fun layer layer' _ hlayer => ?_
  cases hlayer with
  | some hinner => exact (hinner.unwrap label).bind fun _ _ _ hinner => .ok (.wrapper hinner)
  | none =>
    refine .bind_right fun hasMembers _ => .ite (.ok .inline) ?_
    refine .bind_right fun hasNot _ => .ite (.fault _) ?_
    exact .bind_right fun hasEnum _ => .ite (.ok .inline) (hS.statedForm h label)

omit h in
/-- What a reference leads to, up to the schemas inside. -/
theorem target {value : Node} {ref : String} (hn : r.doc.Reads .schema n)
    (hvalue : n.get "$ref" = .ok value) (htext : value.asText = .ok ref) :
    Corresponds (fun t t' => r.doc.Counterpart S .schema t.1 t'.1 ∧ t'.2 = t.2) (r.target ref)
      ((r.withNull S).target ref) := by
  refine (hS.resolve hn rfl hvalue htext).bind fun node node' _ hnode => ?_
  refine (hnode.unwrap _).bind fun inner inner' _ hinner => ?_
  exact hinner.declaresType.bind fun declares declares' _ hdeclares => .ok ⟨hinner, hdeclares.symm⟩

end Document.AllowsNull

/-! ### Shapes -/

/-- The shapes have the same keys and required names, and counterparts as properties. -/
structure Shape.Counterpart (doc : Document) (S : Address → Bool) (a b : Shape) : Prop where
  properties : List.Forall₂ (SameKey (doc.Counterpart S .schema)) a.properties b.properties
  required : b.required = a.required.map (Node.withNull S)

theorem Document.forall₂_insertEntry {role : Role} {e e' : Scalar × Node}
    {es es' : List (Scalar × Node)} (h : List.Forall₂ (SameKey (doc.Counterpart S role)) es es')
    (he : SameKey (doc.Counterpart S role) e e') :
    List.Forall₂ (SameKey (doc.Counterpart S role)) (insertEntry e.1 e.2 es)
      (insertEntry e'.1 e'.2 es') := by
  obtain ⟨key, hvalue⟩ := he
  induction h with
  | nil => exact .cons (.mk key hvalue) .nil
  | cons hfirst hrest ih =>
    obtain ⟨key', hfirst⟩ := hfirst
    rw [insertEntry, insertEntry]
    split_ifs
    · exact .cons (.mk key' hvalue) hrest
    · exact .cons (.mk key' hfirst) ih

theorem Shape.Counterpart.merge {a a' b b' : Shape} (ha : Counterpart doc S a a')
    (hb : Counterpart doc S b b') :
    Counterpart doc S (a.merge b) (a'.merge b') where
  properties := by
    refine List.rel_foldl ?_ ha.properties hb.properties
    intro es es' hes e e' he
    exact forall₂_insertEntry hes he
  required := by rw [Shape.merge, Shape.merge, ha.required, hb.required, List.map_append]

/-- The required names of counterparts. -/
theorem Resolver.requiredNames_withNull (ns : List Node) :
    requiredNames (ns.map (Node.withNull S)) = requiredNames ns := by
  induction ns with
  | nil => rfl
  | cons n ns ih => rw [List.map_cons, requiredNames, requiredNames, Node.asScalar_withNull, ih]

namespace Document.AllowsNull

variable (hS : doc.AllowsNull S)

theorem entryOfPair (h : doc.Counterpart S .property n n') :
    Corresponds (SameKey (doc.Counterpart S .schema)) (Shape.entryOfPair n)
      (Shape.entryOfPair n') := by
  refine (h.items (List.mem_singleton.mpr rfl)).bind fun ns ns' _ hns => ?_
  rcases hns with _ | ⟨hkey, _ | ⟨hvalue, _ | ⟨_, _⟩⟩⟩
  · exact .fault _
  · exact .fault _
  · dsimp only
    rw [hkey.asScalar]
    exact .bind_right fun key _ => .ok (.mk key hvalue)
  · exact .fault _

include hS

theorem propertyEntries (h : doc.Counterpart S .properties n n') :
    Corresponds (List.Forall₂ (SameKey (doc.Counterpart S .schema))) (Shape.propertyEntries n)
      (Shape.propertyEntries n') := by
  have hpairs : Corresponds (List.Forall₂ (SameKey (doc.Counterpart S .schema)))
      (n.items >>= List.mapM Shape.entryOfPair) (n'.items >>= List.mapM Shape.entryOfPair) :=
    (h.items (List.mem_singleton.mpr rfl)).bind fun _ _ _ hns => .mapM hns entryOfPair
  have hentries := hS.entries h (by decide) (List.mem_singleton.mpr rfl)
  unfold Shape.propertyEntries
  rw [h.isTruthy]
  refine .ite (.ok .nil) ?_
  have heq := h.eq
  subst heq
  cases n with
  | map a es => exact hentries
  | _ => exact hpairs

theorem ofMember (h : doc.Counterpart S .schema n n') :
    Corresponds (Shape.Counterpart doc S) (Shape.ofMember n) (Shape.ofMember n') := by
  unfold Shape.ofMember
  rw [h.get_eq (by decide : "required" ≠ "type")]
  refine h.get_properties.bind fun value value' _ hvalue => ?_
  refine (hS.propertyEntries hvalue).bind fun properties properties' _ hproperties =>
    .bind_map fun required _ => ?_
  rw [Node.itemsIfAny_withNull]
  exact .bind_map fun names _ => .ok ⟨hproperties, rfl⟩

theorem ofObject (h : doc.Counterpart S .schema n n') :
    Corresponds (Shape.Counterpart doc S) (Shape.ofObject n) (Shape.ofObject n') := by
  unfold Shape.ofObject
  rw [h.get_eq (by decide : "required" ≠ "type")]
  refine .bind_map fun required _ => ?_
  rw [Node.itemsIfAny_withNull]
  refine .bind_map fun names _ => h.get_properties.bind fun value value' _ hvalue => ?_
  refine (hS.entriesIfAny hvalue (by decide) (List.mem_singleton.mpr rfl)).bind
    fun _ _ _ hproperties => ?_
  exact .ok ⟨hproperties, rfl⟩

theorem dereference (fuel : Nat) (h : doc.Counterpart S .schema n n') :
    Corresponds (doc.Counterpart S .schema) (doc.dereference fuel n)
      ((doc.withNull S doc.size).dereference fuel n') := by
  induction fuel generalizing n n' with
  | zero => exact .fault _
  | succ fuel ih =>
    rw [Document.dereference, Document.dereference, h.has, h.get_eq (by decide)]
    refine .bind_right fun isReference _ => .ite (.bind_map fun value hvalue => ?_) (.ok h)
    rw [Node.asText_withNull]
    exact .bind_right fun ref href =>
      (hS.resolve h.reads rfl hvalue href).bind fun _ _ _ hm => ih hm

section Members

variable {flatten flatten' : Node → Except Fault Shape} {label : String}
  (hf : ∀ {n n'}, doc.Counterpart S .schema n n' →
    Corresponds (Shape.Counterpart doc S) (flatten n) (flatten' n'))
include hf

theorem memberShape {member member' : Node} (hschema : doc.Counterpart S .schema schema schema')
    (hmember : doc.Counterpart S .schema member member') :
    Corresponds (Shape.Counterpart doc S) (doc.memberShape flatten label schema member)
      ((doc.withNull S doc.size).memberShape flatten' label schema' member') := by
  refine (hS.dereference _ hmember).bind fun part part' _ hpart => ?_
  rw [hpart.has, hpart.address, hschema.address]
  refine .bind_right fun hasMembers _ => .ite (hf hpart) ?_
  refine (hS.isObjectLike hpart label).bind fun isObject isObject' _ hobject => ?_
  subst hobject
  exact .ite (hS.ofMember hpart) (.fault _)

theorem mergeMembers {shape shape' : Shape} {members members' : List Node}
    (hschema : doc.Counterpart S .schema schema schema')
    (hshape : Shape.Counterpart doc S shape shape')
    (hmembers : List.Forall₂ (doc.Counterpart S .schema) members members') :
    Corresponds (Shape.Counterpart doc S) (doc.mergeMembers flatten label schema shape members)
      ((doc.withNull S doc.size).mergeMembers flatten' label schema' shape' members') := by
  induction hmembers generalizing shape shape' with
  | nil => exact .ok hshape
  | cons hmember _ ih =>
    exact (hS.memberShape hf hschema hmember).bind fun part part' _ hpart => ih (hshape.merge hpart)

end Members

theorem flattenWithin (label : String) (fuel : Nat) (h : doc.Counterpart S .schema n n') :
    Corresponds (Shape.Counterpart doc S) (doc.flattenWithin label fuel n)
      ((doc.withNull S doc.size).flattenWithin label fuel n') := by
  have hkey : ("allOf", Role.schemas) ∈ Role.keys .schema := by decide
  induction fuel generalizing n n' with
  | zero => exact .fault _
  | succ fuel ih =>
    refine (h.get hkey (by decide)).bind fun value value' _ hvalue => ?_
    refine (hvalue.items (List.mem_singleton.mpr rfl)).bind fun members members' _ hmembers => ?_
    exact hS.mergeMembers ih h ⟨.nil, rfl⟩ (List.rel_append hmembers (.cons h .nil))

end Document.AllowsNull

/-! ### Declarations -/

/-- The blueprints are the same, up to the properties, which are counterparts. -/
inductive Blueprint.Counterpart (doc : Document) (S : Address → Bool) : Blueprint → Blueprint → Prop
  | enumeration (valueType : TypeExpr) (members : List (String × Value)) (description : String) :
    Counterpart doc S (.enumeration valueType members description)
      (.enumeration valueType members description)
  | record (required : List Scalar) {properties properties' : List (Scalar × Node)}
    (description : String)
    (h : List.Forall₂ (SameKey (doc.Counterpart S .schema)) properties properties') :
    Counterpart doc S (.record required properties description)
      (.record required properties' description)

/-- No enumeration gets another type of values when it allows null. -/
def Resolver.KeepsEnumerations (r : Resolver) (S : Address → Bool) : Prop :=
  ∀ ⦃schema⦄, r.doc.Reads .schema schema → schema.has "enum" = .ok true →
    r.enumValueType (schema.withNull S) = r.enumValueType schema

namespace Document.AllowsNull

variable {r : Resolver} (hS : r.doc.AllowsNull S) (hkeeps : r.KeepsEnumerations S)
  (h : r.doc.Counterpart S .schema n n')
include hS h

theorem shapeOf (name : String) :
    Corresponds (Shape.Counterpart r.doc S) (r.shapeOf n name)
      ((r.withNull S).shapeOf n' name) := by
  unfold Resolver.shapeOf
  rw [h.has]
  exact .bind_right fun hasMembers _ => .ite (hS.flattenWithin name _ h) (hS.ofObject h)

include hkeeps

/-- Counterparts have the same blueprint. -/
theorem blueprint (name : String) :
    Corresponds (Blueprint.Counterpart r.doc S) (r.blueprint n name)
      ((r.withNull S).blueprint n' name) := by
  have hvalues : ("enum", Role.values) ∈ Role.keys .schema := by decide
  have hdescription := h.get_trimmedText (by decide : "description" ≠ "type")
  unfold Resolver.blueprint
  rw [← bind_assoc, ← bind_assoc, hdescription, h.has]
  refine .bind_right fun description _ => .bind_right fun hasEnum henum => ?_
  cases hasEnum with
  | false =>
    refine (hS.shapeOf h name).bind fun shape shape' _ hshape => ?_
    rw [hshape.required, Resolver.requiredNames_withNull]
    exact .bind_right fun required _ => .ok (.record required description hshape.properties)
  | true =>
    have hvalueType : (r.withNull S).enumValueType n' = r.enumValueType n :=
      h.eq ▸ hkeeps h.reads henum
    rw [if_pos rfl, if_pos rfl, hvalueType]
    refine .bind_right fun valueType _ =>
      (h.get hvalues (by decide)).bind fun value value' _ hvalue => ?_
    refine (hvalue.items (List.mem_singleton.mpr rfl)).bind fun ns ns' _ hns => ?_
    rw [hS.map_toValue hns]
    exact .bind_right fun members _ => .ok (.enumeration valueType members description)

end Document.AllowsNull

end ServiceContract
