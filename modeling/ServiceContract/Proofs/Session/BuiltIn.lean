import ServiceContract.Proofs.Session.Twin

/-!
# Sessions up to built-in types

Two types are the same up to built-in types if they become equal when every built-in type in them is
replaced by one and the same symbol. Likewise for all that types occur in: fields, declarations,
bindings, methods, contracts. Two sessions *resemble* each other if they are the same up to built-in
types. Each of the steps that change a session does the same in sessions that resemble each other.

## Main definitions

* `TypeExpr.withBuiltIn`, `Declaration.withBuiltIn`, `Method.withBuiltIn`, `Contract.withBuiltIn`: a
  symbol in place of all built-in types.
* `SameBuiltIn`: values that are the same with a symbol in place of all built-in types.
* `Session.Resembles`.

## Main results

* `Build.Twins.claim`, `Build.Twins.reserveReference`, `Build.Twins.remember`,
  `Build.Twins.declare`: the steps that change a session, in sessions that resemble each other.
-/

namespace ServiceContract

/-! ### A symbol in place of built-in types -/

/-- The type with a symbol in place of all built-in types. -/
def TypeExpr.withBuiltIn (symbol : String) : TypeExpr → TypeExpr
  | .primitive _ => .primitive symbol
  | .list item => .list (item.withBuiltIn symbol)
  | .map value => .map (value.withBuiltIn symbol)
  | type => type

/-- The field with a symbol in place of all built-in types. -/
def Field.withBuiltIn (symbol : String) (f : Field) : Field :=
  { f with type := f.type.withBuiltIn symbol }

/-- The declaration with a symbol in place of all built-in types. -/
def Declaration.withBuiltIn (symbol : String) : Declaration → Declaration
  | .record name fields description =>
    .record name (fields.map (Field.withBuiltIn symbol)) description
  | .enumeration name valueType members description =>
    .enumeration name (valueType.withBuiltIn symbol) members description

/-- The binding with a symbol in place of all built-in types. -/
def Binding.withBuiltIn (symbol : String) (b : Binding) : Binding :=
  { b with type := b.type.withBuiltIn symbol }

/-- The method with a symbol in place of all built-in types. -/
def Method.withBuiltIn (symbol : String) (m : Method) : Method :=
  { m with
    returnType := m.returnType.withBuiltIn symbol
    parameters := m.parameters.map (Binding.withBuiltIn symbol) }

/-- The contract with a symbol in place of all built-in types. -/
def Contract.withBuiltIn (symbol : String) (c : Contract) : Contract :=
  { c with
    methods := c.methods.map (Method.withBuiltIn symbol)
    declarations := c.declarations.map (Declaration.withBuiltIn symbol) }

/-- A declaration keeps its name. -/
theorem Declaration.name_withBuiltIn (symbol : String) (d : Declaration) :
    (d.withBuiltIn symbol).name = d.name := by
  cases d <;> rfl

/-- Two values become equal under a map, which puts a symbol in place of all built-in types. -/
def SameBuiltIn {α β : Type} (withBuiltIn : α → β) (a b : α) : Prop :=
  withBuiltIn a = withBuiltIn b

/-! ### Sessions -/

/-- The sessions are the same with a symbol in place of all built-in types. -/
structure Session.Resembles (symbol : String) (s t : Session) : Prop where
  references : s.references.map (fun e => (e.1, e.2.withBuiltIn symbol)) =
    t.references.map fun e => (e.1, e.2.withBuiltIn symbol)
  inlines : s.inlines = t.inlines
  resolving : s.resolving = t.resolving
  taken : s.taken = t.taken
  components : s.components = t.components
  declarations : s.declarations.map (Declaration.withBuiltIn symbol) =
    t.declarations.map (Declaration.withBuiltIn symbol)
  methods : s.methods.map (Method.withBuiltIn symbol) = t.methods.map (Method.withBuiltIn symbol)
  events : s.events = t.events

theorem Session.Resembles.refl (symbol : String) (s : Session) : s.Resembles symbol s :=
  ⟨rfl, rfl, rfl, rfl, rfl, rfl, rfl, rfl⟩

/-- A value is found at a key after a map of the values exactly if one is found before. -/
theorem lookup_map_snd {α β γ : Type} [BEq α] (f : β → γ) (k : α) (l : List (α × β)) :
    (l.map fun e => (e.1, f e.2)).lookup k = (l.lookup k).map f := by
  induction l with
  | nil => rfl
  | cons e l ih =>
    obtain ⟨k', v⟩ := e
    simp only [List.map_cons, List.lookup_cons]
    cases k == k' <;> simp [ih]

namespace Build.Twins

open Session

variable {symbol : String}

/-! ### Steps that read or change a session -/

theorem reference? (ref : String) :
    Twins (Resembles symbol) (SameBuiltIn (Option.map (TypeExpr.withBuiltIn symbol)))
      (Build.reference? ref) (Build.reference? ref) := by
  refine read fun s t h => ?_
  have hlookup := congrArg (List.lookup ref) h.references
  rwa [lookup_map_snd, lookup_map_snd] at hlookup

theorem inline? (schema : Node) :
    Twins (Resembles symbol) Eq (Build.inline? schema) (Build.inline? schema) :=
  read fun _ _ h => by rw [h.inlines]

theorem resolving : Twins (Resembles symbol) Eq (Build.read Session.resolving)
    (Build.read Session.resolving) :=
  read fun _ _ h => h.resolving

theorem note (e : Event) : Twins (Resembles symbol) Eq (Build.note e) (Build.note e) :=
  modify fun _ _ h => { h with events := by rw [h.events] }

/-- The same name is free in both sessions. -/
theorem claim (name : String) :
    Twins (Resembles symbol) Eq (Build.claim name) (Build.claim name) := by
  refine bind_eq (read fun _ _ h => h.taken) fun taken => ?_
  refine bind_eq (modify fun _ _ h => ?_) fun _ => pure rfl
  exact { h with taken := by rw [h.taken] }

/-- A reference gets the same name in both sessions. -/
theorem reserveReference (ref : String) :
    Twins (Resembles symbol) Eq (Build.reserveReference ref) (Build.reserveReference ref) := by
  have hrecord (name : String) : Twins (Resembles symbol) Eq
      (Build.modify (fun s => { s with references := (ref, .declared name) :: s.references }) >>=
        fun _ => Pure.pure name)
      (Build.modify (fun s => { s with references := (ref, .declared name) :: s.references }) >>=
        fun _ => Pure.pure name) := by
    refine bind_eq (modify fun _ _ h => ?_) fun _ => pure rfl
    exact { h with references := by rw [List.map_cons, List.map_cons, h.references] }
  refine bind_eq (read fun _ _ h => h.components) fun components => ?_
  cases componentName? components ref with
  | some name => exact hrecord name
  | none => exact bind_eq (claim _) hrecord

/-- An inline schema gets the same name in both sessions. -/
theorem reserveInline (schema : Node) (hint : String) :
    Twins (Resembles symbol) Eq (Build.reserveInline schema hint)
      (Build.reserveInline schema hint) := by
  refine bind_eq (claim _) fun name => ?_
  refine bind_eq (modify fun _ _ h => ?_) fun _ => pure rfl
  exact { h with inlines := by rw [h.inlines] }

theorem remember (ref : String) {type type' : TypeExpr}
    (h : SameBuiltIn (TypeExpr.withBuiltIn symbol) type type') :
    Twins (Resembles symbol) Eq (Build.remember ref type) (Build.remember ref type') := by
  refine modify fun s t hs => { hs with references := ?_ }
  rw [List.map_cons, List.map_cons, hs.references, h]

theorem declare {d d' : Declaration} (h : SameBuiltIn (Declaration.withBuiltIn symbol) d d') :
    Twins (Resembles symbol) Eq (Build.declare d) (Build.declare d') := by
  have hadd (e : Event) : Twins (Resembles symbol) Eq
      (Build.note e >>= fun _ => Build.modify fun s =>
        { s with declarations := s.declarations ++ [d] })
      (Build.note e >>= fun _ =>
        Build.modify fun s => { s with declarations := s.declarations ++ [d'] }) := by
    refine bind_eq (note e) fun _ => modify fun s t hs => { hs with declarations := ?_ }
    rw [List.map_append, List.map_append, hs.declarations, List.map_singleton,
      List.map_singleton, h]
  have hname : d.name = d'.name := by
    rw [← d.name_withBuiltIn symbol, h, d'.name_withBuiltIn symbol]
  -- Both declarations are records, or both are enumerations, so that the same event is noted.
  cases d with
  | record name fields description =>
    cases d' with
    | record name' fields' description' =>
      cases (hname : name = name')
      exact hadd _
    | enumeration => cases h
  | enumeration name valueType members description =>
    cases d' with
    | record => cases h
    | enumeration name' valueType' members' description' =>
      cases (hname : name = name')
      exact hadd _

theorem addMethod {m m' : Method} (h : SameBuiltIn (Method.withBuiltIn symbol) m m') :
    Twins (Resembles symbol) Eq (Build.addMethod m) (Build.addMethod m') := by
  refine modify fun s t hs => { hs with methods := ?_ }
  rw [List.map_append, List.map_append, hs.methods, List.map_singleton, List.map_singleton, h]

theorem whileResolving_resembles {α : Type} {R : α → α → Prop} {m m' : Build α}
    (hm : Twins (Resembles symbol) R m m') (ref : String) :
    Twins (Resembles symbol) R (Build.whileResolving ref m) (Build.whileResolving ref m') :=
  hm.whileResolving ref (fun _ _ h => { h with resolving := by rw [h.resolving] })
    fun _ _ h => { h with resolving := by rw [h.resolving] }

end Build.Twins

end ServiceContract
