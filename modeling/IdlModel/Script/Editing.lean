import IdlModel.Model.SymbolTable
import IdlModel.Naming
import IdlModel.Report.Issue
import IdlModel.Script.Action
import IdlModel.Text.Letter
import IdlModel.Text.Replace

/-!
# Editing entities

`Edit.apply` makes an edit at a copy of an entity.  It either gives the changed
copy or the issue that stands in the way.

*Properties.*  Every entity has a name, a package and an internal name, and an
enumeration has a prefix and a suffix.  No property becomes blank.

*Renaming.*  All members declared under one name are renamed together, the
constants first, then attributes, static attributes, methods and static
methods.  From the second one on a number is added to the new name.

*Overriding.*  A type override is put on every attribute, method, field or
parameter of a name.

*Events.*  An event belongs to an interface, and its type is an interface.  The
attribute `on` and the name of the event, if there is one, is its handler.
-/

namespace IdlModel

/-! ## Properties -/

namespace Script

/-- A property of an entity. -/
inductive Property where
  | name | package | internal
  /-- The prefix of an enumeration. -/
  | namePrefix
  /-- The suffix of an enumeration. -/
  | nameSuffix
deriving DecidableEq, Repr

/-- The property of a name at an entity of a kind. -/
def Property.ofText? (kind : EntityKind) (name : String) : Option Property :=
  if name = "name" then some .name
  else if name = "package" then some .package
  else if name = "internal" then some .internal
  else if name = "prefix" ∧ kind = .enumeration then some .namePrefix
  else if name = "suffix" ∧ kind = .enumeration then some .nameSuffix
  else none

end Script

namespace Entity

open Script (Property)

/-- The value of a property. -/
def property (e : Entity) : Property → String
  | .name => e.identity.name
  | .package => e.identity.package
  | .internal => e.identity.internal
  | .namePrefix =>
      match e with
      | .enumeration d => d.namePrefix
      | _ => ""
  | .nameSuffix =>
      match e with
      | .enumeration d => d.nameSuffix
      | _ => ""

/-- Put a value in the place of a property. -/
def withProperty (e : Entity) (value : String) : Property → Entity
  | .name => e.mapIdentity fun i => { i with name := value }
  | .package => e.mapIdentity fun i => { i with package := value }
  | .internal => e.mapIdentity fun i => { i with internal := value }
  | .namePrefix =>
      match e with
      | .enumeration d => .enumeration { d with namePrefix := value }
      | _ => e
  | .nameSuffix =>
      match e with
      | .enumeration d => .enumeration { d with nameSuffix := value }
      | _ => e

/-- The property of a name. -/
def findProperty (e : Entity) (name : String) : Except Issue Property :=
  match Property.ofText? e.kind name with
  | some p => .ok p
  | none => .error (.unknownProperty e.kind name)

/-- Set a property to a value that is not blank. -/
def setProperty (e : Entity) (name value : String) : Except Issue Entity := do
  let p ← e.findProperty name
  if Text.isBlankText value then .error (.invalidPropertyValue name value)
  else return e.withProperty value p

/-- Replace a part of a property. -/
def replaceInProperty (e : Entity) (name old new : String) : Except Issue Entity := do
  let p ← e.findProperty name
  e.setProperty name (Text.replaceAll (e.property p) old new)

end Entity

/-! ## Names of members -/

/-- Rebuild the names of members, from their declared names.  They are visited
in the order in which a rename counts them. -/
def Members.mapNamesM {m : Type → Type} [Monad m] (f : (idl name : String) → m String)
    (d : Members) : m Members := do
  return {
    constants := ← d.constants.mapM fun x => do return { x with name := ← f x.idl x.name }
    attributes := ← d.attributes.mapM fun x => do return { x with name := ← f x.idl x.name }
    staticAttributes :=
      ← d.staticAttributes.mapM fun x => do return { x with name := ← f x.idl x.name }
    methods := ← d.methods.mapM fun x => do return { x with name := ← f x.idl x.name }
    staticMethods := ← d.staticMethods.mapM fun x => do return { x with name := ← f x.idl x.name } }

/-- The name of the member that is renamed behind `n` others. -/
def renamed (newName : String) (n : Nat) : String :=
  if n = 0 then newName else newName ++ toString (n + 1)

/-- Rename a member if it is declared as `member`.  The state counts those
renamed before. -/
def renameOne (member newName : String) (idl name : String) : StateM Nat String := do
  if idl = member then
    let n ← getModify (· + 1)
    return renamed newName n
  else return name

/-- Rename the members declared as `member`.  The second result counts them. -/
def Members.rename (d : Members) (member newName : String) : Members × Nat :=
  (d.mapNamesM (renameOne member newName)).run 0

namespace Entity

/-- Rename the members declared as `member`. -/
def renameMembers (e : Entity) (member newName : String) : Except Issue Entity :=
  match e with
  | .interface d =>
      match d.members.rename member newName with
      | (_, 0) => .error (.unknownRenameTarget e.key member)
      | (members, _) => .ok (.interface { d with members })
  | _ => .error (.renameNotSupported e.kind e.key)

/-! ## Types of members -/

/-- The names under which a type can be overridden. -/
def overridable : Entity → List String
  | .interface d =>
      (d.members.attributes ++ d.members.staticAttributes).map (·.idl) ++
        (d.members.methods ++ d.members.staticMethods).map (·.idl)
  | .dictionary d => d.members.map (·.idl)
  | .callback d => d.params.map (·.name)
  | .enumeration _ => []

/-- Override the type of everything declared as `member`. -/
def withOverride (member type : String) : Entity → Entity
  | .interface d =>
      let overrideIn (x : Attribute) : Attribute :=
        if x.idl = member then { x with typeOverride := some type } else x
      let overrideAt (x : Method) : Method :=
        if x.idl = member then { x with typeOverride := some type } else x
      .interface { d with members := { d.members with
        attributes := d.members.attributes.map overrideIn
        staticAttributes := d.members.staticAttributes.map overrideIn
        methods := d.members.methods.map overrideAt
        staticMethods := d.members.staticMethods.map overrideAt } }
  | .dictionary d =>
      .dictionary { d with members := d.members.map fun x =>
        if x.idl = member then { x with typeOverride := some type } else x }
  | .callback d =>
      .callback { d with params := d.params.map fun x =>
        if x.name = member then { x with typeOverride := some type } else x }
  | .enumeration d => .enumeration d

/-- Override the type of what is declared as `member`. -/
def changeType (e : Entity) (member type : String) : Except Issue Entity :=
  if e.kind = .enumeration then .error (.notApplicable "changetype" e.kind e.key)
  else if e.overridable.contains member then .ok (e.withOverride member type)
  else .error (.unknownMember e.key member)

/-! ## Constants and events -/

/-- Give the constants of an interface their usual names. -/
def patch : Entity → Except Issue Entity
  | .interface d =>
      .ok (.interface { d with members := { d.members with
        constants := d.members.constants.map fun x => { x with name := constantName x.idl } } })
  | e => .error (.notApplicable "patch" e.kind e.key)

/-- The interface of a name, as the type of an event. -/
def eventType? (t : SymbolTable) (name : String) : Option EntityId :=
  (t.lookupType? name).filter fun id => t.kind? id == some .interface

/-- The display name of the attribute that handles an event. -/
def handler? (d : Interface) (event : String) : Option String :=
  (d.members.attributes.find? (·.idl == "on" ++ event)).map (·.name)

/-- Declare an event at an interface. -/
def addEvent (t : SymbolTable) (e : Entity) (name type : String) : Except Issue Entity :=
  match e with
  | .interface d =>
      match eventType? t type with
      | some id =>
          let event : Event :=
            { name, type := id, handler := handler? d name, source := d.identity.source }
          .ok (.interface { d with events := d.events ++ [event] })
      | none => .error (.unknownEventType type)
  | _ => .error (.notApplicable "event" e.kind e.key)

end Entity

/-- Make an edit at a copy of an entity. -/
def Script.Edit.apply (t : SymbolTable) (e : Entity) : Script.Edit → Except Issue Entity
  | .setProperty name value => e.setProperty name value
  | .rename member newName => e.renameMembers member newName
  | .changeType member type => e.changeType member type
  | .patch => e.patch
  | .replace property old new => e.replaceInProperty property old new
  | .event name type => e.addEvent t name type

end IdlModel
