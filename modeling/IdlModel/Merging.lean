import IdlModel.Compilation

/-!
# Merging fragments

The second stage adds what was put aside to its base, in four rounds.

1. Fragments of dictionaries add their members.
2. Fragments of interfaces add their members.  They can make the interface
   global, and give it a constructor if it has none.
3. Fragments of mixins add their members.
4. An includes statement adds the members of a mixin to an interface.

Within a round the order is that of declaration.  Mixins are complete before
the first one is included, so every interface gets all of a mixin.  A fragment
or statement whose base or mixin is missing or of another kind is reported and
lost.

The fragments are taken out of the state before the first round, so they are
gone also if the stage stops.
-/

namespace IdlModel

namespace SymbolTable

/-- The kind of the declaration of a symbol. -/
def declarationKind? (t : SymbolTable) : Symbol → Option DeclarationKind
  | .type id => (t.kind? id).map .entity
  | .typedef _ => some .typedef
  | .mixin _ => some .mixin

/-- The entity that a fragment of a kind belongs to, or what is wrong. -/
def baseOf (t : SymbolTable) (name : String) (kind : EntityKind) : Except Issue EntityId :=
  match t.lookup? name with
  | none => .error (.unknownBase (.entity kind) name)
  | some symbol =>
      let wrong := .error (.kindMismatch name (.entity kind) ((t.declarationKind? symbol).getD .mixin))
      match symbol with
      | .type id => if t.kind? id = some kind then .ok id else wrong
      | _ => wrong

/-- The mixin that a fragment of one belongs to, or what is wrong. -/
def baseMixin (t : SymbolTable) (name : String) : Except Issue Nat :=
  match t.lookup? name with
  | none => .error (.unknownBase .mixin name)
  | some (.mixin i) => .ok i
  | some symbol => .error (.kindMismatch name .mixin ((t.declarationKind? symbol).getD .mixin))

/-- The interface and the mixin of an includes statement, or what is wrong. -/
def inclusionOf (t : SymbolTable) (d : Inclusion) : Except Issue (EntityId × Mixin) :=
  match (t.lookupType? d.target).filter (t.kind? · == some .interface) with
  | none => .error (.unknownTarget d.target)
  | some id =>
      match t.lookup? d.mixin with
      | some (.mixin i) =>
          match t.mixins[i]? with
          | some found => .ok (id, found)
          | none => .error (.unknownMixin d.mixin)
      | _ => .error (.unknownMixin d.mixin)

end SymbolTable

/-! ## Adding to an entity -/

namespace Entity

/-- A dictionary with more members.  No other entity changes. -/
def addFields (fields : List Field) : Entity → Entity
  | .dictionary d => .dictionary { d with members := d.members ++ fields }
  | e => e

/-- An interface with more members.  No other entity changes. -/
def addMembers (members : Members) : Entity → Entity
  | .interface d => .interface { d with members := d.members ++ members }
  | e => e

/-- An interface with a fragment of it.  No other entity changes. -/
def addFragment (fragment : Interface) : Entity → Entity
  | .interface d => .interface
      { d with
        members := d.members ++ fragment.members
        global := d.global || fragment.global
        constructor := d.constructor <|> fragment.constructor }
  | e => e

end Entity

/-! ## The rounds -/

/-- Change the table by what was found, or report what is wrong and poll the
log. -/
def mergeFound {α : Type} (found : Except Issue α) (source : Location)
    (change : α → SymbolTable → SymbolTable) : CompileM Unit :=
  match found with
  | .ok x => modify fun c => { c with table := change x c.table }
  | .error issue => do
      modify (·.report issue source)
      checkLimit

/-- Add a fragment of a dictionary to its base. -/
def mergeDictionary (d : Dictionary) : CompileM Unit := do
  let found := (← get).table.baseOf d.identity.idl .dictionary
  mergeFound found d.identity.source fun id t => t.modify id (Entity.addFields d.members)

/-- Add a fragment of an interface to its base. -/
def mergeInterface (d : Interface) : CompileM Unit := do
  let found := (← get).table.baseOf d.identity.idl .interface
  mergeFound found d.identity.source fun id t => t.modify id (Entity.addFragment d)

/-- Add a fragment of a mixin to its base.  Polls the log in any case. -/
def mergeMixin (d : Mixin) : CompileM Unit := do
  let found := (← get).table.baseMixin d.identity.idl
  mergeFound found d.identity.source fun i t => t.extendMixin i d.members
  checkLimit

/-- Add the members of a mixin to an interface. -/
def mergeInclusion (d : Inclusion) : CompileM Unit := do
  let found := (← get).table.inclusionOf d
  mergeFound found d.source fun (id, found) t => t.modify id (Entity.addMembers found.members)

/-- Add everything that was put aside. -/
def mergeFragments : CompileM Unit := do
  let fragments := (← get).fragments
  modify ({ · with fragments := {} })
  fragments.dictionaries.forM mergeDictionary
  fragments.interfaces.forM mergeInterface
  fragments.mixins.forM mergeMixin
  fragments.inclusions.forM mergeInclusion

end IdlModel
