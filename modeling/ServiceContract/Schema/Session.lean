import ServiceContract.Contract.Method
import ServiceContract.Document.Reference
import ServiceContract.FreshName
import ServiceContract.Naming

/-!
# Sessions

A contract is made in steps that share a session: the types that references and inline schemas have
got, the names that are taken, the references in progress, and the declarations and methods made so
far. A step that fails keeps what it has done up to the fault.

The names of all components are taken at the start, so that no inline schema gets one of them.

## Main definitions

* `Session`, `Session.start`.
* `Build`: steps, which always leave a session behind.
* `Build.claim`, `Build.reserveReference`, `Build.reserveInline`, `Build.remember`,
  `Build.whileResolving`, `Build.declare`, `Build.addMethod`, `Build.note`: the steps that change a
  session.

## Main results

* `Build.bind_apply`, `Build.pure_apply`: what composed steps do to a session.
-/

namespace ServiceContract

/-- What is noted while a contract is made. -/
inductive Event where
  /-- A type was declared. -/
  | declared (isEnumeration : Bool) (name : String)
  /-- A parameter was passed over because of its location. -/
  | skippedParameter (location : String) (name : Value)
  /-- A parameter got another name because its own was taken. -/
  | renamedParameter (name newName : String)
  /-- A method was made. -/
  | builtMethod (name httpMethod : String) (path : Scalar)
deriving Inhabited

/-- The state that the steps share. -/
structure Session where
  /-- The types of the references met so far, the latest first. -/
  references : List (String × TypeExpr)
  /-- The names of the inline schemas met so far, by their addresses. -/
  inlines : List (Address × String)
  /-- The references of aliases in progress. -/
  resolving : List String
  /-- The type names taken so far. -/
  taken : List String
  /-- The type names of the components. -/
  components : List (String × String)
  declarations : List Declaration
  methods : List Method
  events : List Event
deriving Inhabited

/-- A step: it fails or gives a value, and leaves a session behind in either case. -/
def Build (α : Type) : Type := Session → Except Fault α × Session

namespace Build

/-- The step that gives a value and changes nothing. -/
protected def pure {α : Type} (a : α) : Build α := fun s => (.ok a, s)

/-- One step after another; the second is not taken if the first fails. -/
protected def bind {α β : Type} (step : Build α) (next : α → Build β) : Build β := fun s =>
  match step s with
  | (.ok a, s) => next a s
  | (.error fault, s) => (.error fault, s)

instance : Monad Build where
  pure := Build.pure
  bind := Build.bind

/-- A result that does not depend on the session, as a step. -/
def ofExcept {α : Type} (r : Except Fault α) : Build α := fun s => (r, s)

instance : MonadLift (Except Fault) Build where
  monadLift := ofExcept

instance {α : Type} : Inhabited (Build α) := ⟨ofExcept (.error .malformed)⟩

/-- The step that fails. -/
def fail {α : Type} (fault : Fault) : Build α := ofExcept (.error fault)

/-- A part of the session. -/
def read {α : Type} (f : Session → α) : Build α := fun s => (.ok (f s), s)

/-- The step that only changes the session. -/
def modify (f : Session → Session) : Build Unit := fun s => (.ok (), f s)

@[simp] theorem pure_apply {α : Type} (a : α) (s : Session) :
    (pure a : Build α) s = (.ok a, s) := rfl

@[simp] theorem bind_apply {α β : Type} (step : Build α) (next : α → Build β) (s : Session) :
    (step >>= next) s =
      match step s with
      | (.ok a, s) => next a s
      | (.error fault, s) => (.error fault, s) := rfl

@[simp] theorem ofExcept_apply {α : Type} (r : Except Fault α) (s : Session) :
    ofExcept r s = (r, s) := rfl

@[simp] theorem fail_apply {α : Type} (fault : Fault) (s : Session) :
    (fail fault : Build α) s = (.error fault, s) := rfl

@[simp] theorem read_apply {α : Type} (f : Session → α) (s : Session) :
    read f s = (.ok (f s), s) := rfl

@[simp] theorem modify_apply (f : Session → Session) (s : Session) :
    modify f s = (.ok (), f s) := rfl

/-! ### Names -/

/-- Takes the first free spelling of a type name. -/
def claim (name : String) : Build String := do
  let fresh := freshName "" (← read Session.taken) name
  modify fun s => { s with taken := fresh :: s.taken }
  return fresh

/-- A name, or another one in place of the empty name. -/
def nonEmpty (name default : String) : String :=
  if name.isEmpty then default else name

/-- The front part of the references to components. -/
def componentPointer : List Char := "#/components/schemas/".toList

/-- The type name that a component got at the start, for a reference to it. -/
def componentName? (components : List (String × String)) (ref : String) : Option String :=
  if componentPointer.isPrefixOf ref.toList then
    components.lookup (referenceName ref)
  else none

/-- Gives a reference its type name: the name of its component, or a fresh one. -/
def reserveReference (ref : String) : Build String := do
  let name ←
    match componentName? (← read Session.components) ref with
    | some name => pure name
    | none => claim (nonEmpty (Naming.pascal (referenceName ref)) "Schema")
  modify fun s => { s with references := (ref, .declared name) :: s.references }
  return name

/-- Gives an inline schema a fresh type name. -/
def reserveInline (schema : Node) (hint : String) : Build String := do
  let name ← claim (nonEmpty (Naming.pascal hint) "Inline")
  modify fun s => { s with inlines := (schema.address, name) :: s.inlines }
  return name

/-! ### Types -/

/-- The type that a reference has got. -/
def reference? (ref : String) : Build (Option TypeExpr) :=
  read fun s => s.references.lookup ref

/-- The name that an inline schema has got. -/
def inline? (schema : Node) : Build (Option String) :=
  read fun s => s.inlines.lookup schema.address

/-- Records the type of a reference. -/
def remember (ref : String) (type : TypeExpr) : Build Unit :=
  modify fun s => { s with references := (ref, type) :: s.references }

/-- Takes a step with a reference in progress, which it no longer is afterwards, whether the step
fails or not. -/
def whileResolving {α : Type} (ref : String) (step : Build α) : Build α := fun s =>
  match step { s with resolving := ref :: s.resolving } with
  | (result, s) => (result, { s with resolving := s.resolving.erase ref })

/-! ### Results -/

/-- Notes an event. -/
def note (event : Event) : Build Unit :=
  modify fun s => { s with events := s.events ++ [event] }

/-- Adds a declaration. -/
def declare (d : Declaration) : Build Unit := do
  note (.declared (match d with | .enumeration .. => true | .record .. => false) d.name)
  modify fun s => { s with declarations := s.declarations ++ [d] }

/-- Adds a method. -/
def addMethod (m : Method) : Build Unit :=
  modify fun s => { s with methods := s.methods ++ [m] }

end Build

namespace Session

/-- The session before anything is taken. -/
def blank : Session where
  references := []
  inlines := []
  resolving := []
  taken := []
  components := []
  declarations := []
  methods := []
  events := []

/-- The components after an assignment: a component that is present keeps its place. -/
def insertComponent (key name : String) : List (String × String) → List (String × String)
  | [] => [(key, name)]
  | c :: cs => if c.1 = key then (c.1, name) :: cs else c :: insertComponent key name cs

/-- Takes the type name of a component. -/
def claimComponent (key : String) : Build Unit := do
  let name ← Build.claim (Build.nonEmpty (Naming.pascal key) "Schema")
  Build.modify fun s => { s with components := insertComponent key name s.components }

/-- Takes the type names of components, which have to be texts, in order. -/
def claimComponents : List Node → Build Unit
  | [] => pure ()
  | n :: ns => do
    claimComponent (← n.asText)
    claimComponents ns

/-- The schemas among the components of a document. -/
def componentNodes (doc : Document) : Except Fault (List Node) := do
  let components := (← doc.root.get "components").orEmpty
  (← components.get "schemas").itemsIfAny

/-- The session at the start, in which the names of all components are taken. -/
def start (doc : Document) : Except Fault Session :=
  match (do claimComponents (← componentNodes doc) : Build Unit) blank with
  | (.ok (), s) => .ok s
  | (.error fault, _) => .error fault

end Session

end ServiceContract
