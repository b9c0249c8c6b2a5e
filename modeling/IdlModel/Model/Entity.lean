import IdlModel.Model.TypeRef
import IdlModel.Naming
import IdlModel.Report.Location

/-!
# Entities

The declarations of the model.  *Entities* are the types one can refer to:
interfaces, dictionaries, enumerations and callbacks.  Mixins and typedefs are
declared too but are no entities: a mixin is copied into interfaces, a typedef
is replaced by what it stands for.

Every entity has an *identity*.  Its IDL name never changes, while its display
name, internal name and package may be edited.

`Entity.mapTypesM` visits the types of an entity in this order.

* interface: constants, attributes, static attributes, methods, static methods,
  constructor.  A method gives its result and then its parameters.
* dictionary: members, then inherited members.
* callback: result, then parameters.

Parents are not among them, for a parent has to be of the kind of its child.
-/

namespace IdlModel

/-! ## Parts -/

/-- Says that an entity comes from the template of promises. -/
inductive TemplateMark where
  /-- It is a part of the template. -/
  | template
  /-- It was made from the template for the element with this spelling. -/
  | madeFor (key : String)
deriving DecidableEq, Repr

/-- What every declared thing has. -/
structure Identity where
  /-- The name in the definitions. -/
  idl : String
  /-- The exported name. -/
  name : String
  /-- The hidden name. -/
  internal : String
  /-- The package. -/
  package : String
  /-- Where it comes from, if from the template of promises. -/
  template : Option TemplateMark := none
  /-- Where it is declared. -/
  source : Location
deriving DecidableEq, Repr, Inhabited

/-- The identity of a new declaration. -/
def Identity.ofIdl (idl package : String) (source : Location) : Identity :=
  { idl, name := displayName idl, internal := internalName idl, package, source }

/-- A constant. -/
structure Constant where
  /-- The name in the definitions. -/
  idl : String
  /-- The exported name. -/
  name : String
  /-- Its type. -/
  type : TypeRef
  /-- Its value, as it is written. -/
  value : String
  /-- Where it is declared. -/
  source : Location
deriving Repr

/-- An attribute. -/
structure Attribute where
  /-- The name in the definitions. -/
  idl : String
  /-- The exported name. -/
  name : String
  /-- Its type. -/
  type : TypeRef
  /-- Whether it cannot be assigned. -/
  readonly : Bool
  /-- Where it is declared. -/
  source : Location
  /-- The type that a script puts in the place of its own. -/
  typeOverride : Option String := none
deriving Repr

/-- A parameter. -/
structure Parameter where
  /-- Its name. -/
  name : String
  /-- Its type. -/
  type : TypeRef
  /-- Whether it may be left out. -/
  optional : Bool
  /-- Whether it stands for any number of values. -/
  variadic : Bool
  /-- The type that a script puts in the place of its own. -/
  typeOverride : Option String := none
deriving Repr

/-- A method. -/
structure Method where
  /-- The name in the definitions. -/
  idl : String
  /-- The exported name. -/
  name : String
  /-- The type it returns. -/
  result : TypeRef
  /-- Its parameters. -/
  params : List Parameter
  /-- Where it is declared. -/
  source : Location
  /-- The type that a script puts in the place of its own. -/
  typeOverride : Option String := none
deriving Repr

/-- The members of an interface or a mixin. -/
structure Members where
  /-- The constants. -/
  constants : List Constant := []
  /-- The attributes of objects. -/
  attributes : List Attribute := []
  /-- The attributes of the interface itself. -/
  staticAttributes : List Attribute := []
  /-- The methods of objects. -/
  methods : List Method := []
  /-- The methods of the interface itself. -/
  staticMethods : List Method := []
deriving Repr, Inhabited

/-- An event that a script declares for an interface. -/
structure Event where
  /-- Its name. -/
  name : String
  /-- The interface of its objects. -/
  type : EntityId
  /-- The exported name of the attribute that holds its handler. -/
  handler : Option String
  /-- Where the interface is declared. -/
  source : Location
deriving DecidableEq, Repr

/-- A member of a dictionary. -/
structure Field where
  /-- The name in the definitions. -/
  idl : String
  /-- The exported name. -/
  name : String
  /-- Its type. -/
  type : TypeRef
  /-- Whether it has to be given. -/
  required : Bool
  /-- Its default value, as it is written. -/
  default : Option String
  /-- Where it is declared. -/
  source : Location
  /-- The type that a script puts in the place of its own. -/
  typeOverride : Option String := none
deriving Repr

/-! ## Declarations -/

/-- An interface. -/
structure Interface where
  /-- Its identity. -/
  identity : Identity
  /-- Its members. -/
  members : Members := {}
  /-- Its constructor. -/
  constructor : Option Method := none
  /-- What it inherits from: a name, and once linked an interface. -/
  parent : Option TypeRef := none
  /-- Whether its members are in the global scope. -/
  global : Bool := false
  /-- Whether it is a callback interface. -/
  callback : Bool := false
  /-- Its events. -/
  events : List Event := []
deriving Repr, Inhabited

/-- A dictionary. -/
structure Dictionary where
  /-- Its identity. -/
  identity : Identity
  /-- Its own members. -/
  members : List Field := []
  /-- The members of everything it inherits from, the most distant first. -/
  inherited : List Field := []
  /-- What it inherits from: a name, and once linked a dictionary. -/
  parent : Option TypeRef := none
deriving Repr

/-- An enumeration. -/
structure Enumeration where
  /-- Its identity. -/
  identity : Identity
  /-- Its values, each once. -/
  values : List String := []
  /-- What the names of its values start with. -/
  namePrefix : String := ""
  /-- What the names of its values end with. -/
  nameSuffix : String := ""
deriving Repr

/-- A callback function. -/
structure Callback where
  /-- Its identity. -/
  identity : Identity
  /-- The type it returns. -/
  result : TypeRef
  /-- Its parameters. -/
  params : List Parameter := []
deriving Repr, Inhabited

/-- A mixin. -/
structure Mixin where
  /-- Its identity. -/
  identity : Identity
  /-- Its members. -/
  members : Members := {}
deriving Repr

/-- The statement that an interface includes a mixin. -/
structure Inclusion where
  /-- The name of the interface. -/
  target : String
  /-- The name of the mixin. -/
  mixin : String
  /-- Where it is stated. -/
  source : Location
deriving DecidableEq, Repr

/-- A name for a type. -/
structure Typedef where
  /-- The name. -/
  idl : String
  /-- What it stands for. -/
  type : TypeRef
  /-- Where it is declared. -/
  source : Location
deriving Repr

/-- A type one can refer to. -/
inductive Entity where
  | interface (decl : Interface)
  | dictionary (decl : Dictionary)
  | enumeration (decl : Enumeration)
  | callback (decl : Callback)
deriving Repr

instance : Inhabited Entity := ⟨.interface default⟩

/-! ## Members -/

namespace Members

/-- The members of one list behind those of the other, list by list. -/
def append (a b : Members) : Members :=
  { constants := a.constants ++ b.constants
    attributes := a.attributes ++ b.attributes
    staticAttributes := a.staticAttributes ++ b.staticAttributes
    methods := a.methods ++ b.methods
    staticMethods := a.staticMethods ++ b.staticMethods }

instance : Append Members := ⟨append⟩

/-- Whether there is no member at all. -/
def isEmpty (m : Members) : Bool :=
  m.constants.isEmpty && m.attributes.isEmpty && m.staticAttributes.isEmpty &&
    m.methods.isEmpty && m.staticMethods.isEmpty

end Members

/-! ## Entities -/

namespace Entity

/-- The kind of an entity. -/
def kind : Entity → EntityKind
  | .interface _ => .interface
  | .dictionary _ => .dictionary
  | .enumeration _ => .enumeration
  | .callback _ => .callback

/-- The identity of an entity. -/
def identity : Entity → Identity
  | .interface d => d.identity
  | .dictionary d => d.identity
  | .enumeration d => d.identity
  | .callback d => d.identity

/-- The entity with an identity changed by `f`. -/
def mapIdentity (f : Identity → Identity) : Entity → Entity
  | .interface d => .interface { d with identity := f d.identity }
  | .dictionary d => .dictionary { d with identity := f d.identity }
  | .enumeration d => .enumeration { d with identity := f d.identity }
  | .callback d => .callback { d with identity := f d.identity }

/-- The name in the definitions. -/
def key (e : Entity) : String := e.identity.idl

/-- Where an entity is declared. -/
def source (e : Entity) : Location := e.identity.source

/-- A reference to the entity with this handle. -/
def toRef (e : Entity) (id : EntityId) : TypeRef := .entity e.kind id

/-- What an entity inherits from. -/
def parent? : Entity → Option TypeRef
  | .interface d => d.parent
  | .dictionary d => d.parent
  | _ => none

/-- The members of a dictionary, and none of any other entity. -/
def fields : Entity → List Field
  | .dictionary d => d.members
  | _ => []

end Entity

/-! ## Visiting types -/

section Types

variable {m : Type → Type} [Monad m] (f : Location → TypeRef → m TypeRef)

/-- Rebuild the types of some parameters declared at one place. -/
def Parameter.mapTypesM (source : Location) (params : List Parameter) : m (List Parameter) :=
  params.mapM fun p => do return { p with type := ← f source p.type }

/-- Rebuild the types of a method. -/
def Method.mapTypesM (d : Method) : m Method := do
  let result ← f d.source d.result
  return { d with result, params := ← Parameter.mapTypesM f d.source d.params }

/-- Rebuild the types of constants. -/
def Constant.mapTypesM (ds : List Constant) : m (List Constant) :=
  ds.mapM fun d => do return { d with type := ← f d.source d.type }

/-- Rebuild the types of attributes. -/
def Attribute.mapTypesM (ds : List Attribute) : m (List Attribute) :=
  ds.mapM fun d => do return { d with type := ← f d.source d.type }

/-- Rebuild the types of fields. -/
def Field.mapTypesM (ds : List Field) : m (List Field) :=
  ds.mapM fun d => do return { d with type := ← f d.source d.type }

/-- Rebuild the types of members. -/
def Members.mapTypesM (d : Members) : m Members := do
  return {
    constants := ← Constant.mapTypesM f d.constants
    attributes := ← Attribute.mapTypesM f d.attributes
    staticAttributes := ← Attribute.mapTypesM f d.staticAttributes
    methods := ← d.methods.mapM (Method.mapTypesM f)
    staticMethods := ← d.staticMethods.mapM (Method.mapTypesM f) }

/-- Rebuild the types of an interface. -/
def Interface.mapTypesM (d : Interface) : m Interface := do
  let members ← Members.mapTypesM f d.members
  let constructor ←
    match d.constructor with
    | some method => some <$> Method.mapTypesM f method
    | none => pure none
  return { d with members, constructor }

/-- Rebuild the types of a dictionary. -/
def Dictionary.mapTypesM (d : Dictionary) : m Dictionary := do
  let members ← Field.mapTypesM f d.members
  return { d with members, inherited := ← Field.mapTypesM f d.inherited }

/-- Rebuild the types of a callback. -/
def Callback.mapTypesM (d : Callback) : m Callback := do
  let result ← f d.identity.source d.result
  return { d with result, params := ← Parameter.mapTypesM f d.identity.source d.params }

/-- Rebuild the types of an entity. -/
def Entity.mapTypesM : Entity → m Entity
  | .interface d => .interface <$> Interface.mapTypesM f d
  | .dictionary d => .dictionary <$> Dictionary.mapTypesM f d
  | .enumeration d => pure (.enumeration d)
  | .callback d => .callback <$> Callback.mapTypesM f d

end Types

/-- Rebuild the types of an entity by a function. -/
def Entity.mapTypes (f : TypeRef → TypeRef) (e : Entity) : Entity :=
  (Entity.mapTypesM (m := Id) (fun _ t => pure (f t)) e).run

/-! ## Listing types -/

/-- The types of some parameters with the place they are declared at. -/
def Parameter.types (source : Location) (params : List Parameter) : List (Location × TypeRef) :=
  params.map fun p => (source, p.type)

/-- The types of a method. -/
def Method.types (d : Method) : List (Location × TypeRef) :=
  (d.source, d.result) :: Parameter.types d.source d.params

/-- The types of members, in the order of `Members.mapTypesM`. -/
def Members.types (d : Members) : List (Location × TypeRef) :=
  d.constants.map (fun c => (c.source, c.type)) ++
    d.attributes.map (fun a => (a.source, a.type)) ++
    d.staticAttributes.map (fun a => (a.source, a.type)) ++
    d.methods.flatMap Method.types ++ d.staticMethods.flatMap Method.types

/-- The types of an entity with the places they are reported at, in the order of
`Entity.mapTypesM`. -/
def Entity.types : Entity → List (Location × TypeRef)
  | .interface d => d.members.types ++ d.constructor.toList.flatMap Method.types
  | .dictionary d => (d.members ++ d.inherited).map fun x => (x.source, x.type)
  | .enumeration _ => []
  | .callback d =>
      (d.identity.source, d.result) :: Parameter.types d.identity.source d.params

end IdlModel
