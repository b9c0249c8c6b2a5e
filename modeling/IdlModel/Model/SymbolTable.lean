import IdlModel.Data.Register
import IdlModel.Model.Entity
import IdlModel.Text.EditDistance

/-!
# The symbol table

The table holds the entities in the order in which they came, each with a mark
that says whether it is *in use*.  A handle is a place in this order.  Entities
are never removed and never change their place.

One index of names covers entities, mixins and typedefs, so a name stands for
one thing only and the first declaration keeps it.  Entities made from the
template of promises are not in the index.  They are found under the spelling
of the element.
-/

namespace IdlModel

/-- What a name stands for. -/
inductive Symbol where
  | type (id : EntityId)
  | mixin (index : Nat)
  | typedef (index : Nat)
deriving DecidableEq, Repr

/-- Whether a symbol can stand where a type is wanted. -/
def Symbol.isNamedType : Symbol → Bool
  | .mixin _ => false
  | _ => true

/-- The entities made for one promise. -/
structure PromiseInstance where
  /-- The interface. -/
  interface : EntityId
  /-- The callback for the value. -/
  onFulfilled : EntityId
  /-- The callback for the failure. -/
  onRejected : EntityId
deriving DecidableEq, Repr

/-- An entity in its place. -/
structure Slot where
  /-- The entity. -/
  entity : Entity
  /-- Whether it is in use. -/
  inUse : Bool := false
deriving Repr, Inhabited

/-- A symbol table. -/
structure SymbolTable where
  /-- The entities. -/
  slots : Array Slot := #[]
  /-- The index of names. -/
  names : Register String Symbol := Register.empty
  /-- The mixins. -/
  mixins : Array Mixin := #[]
  /-- The typedefs. -/
  typedefs : Array Typedef := #[]
  /-- The promises by the spelling of their element. -/
  promises : Register String PromiseInstance := Register.empty

instance : Inhabited SymbolTable := ⟨{}⟩

namespace SymbolTable

/-! ## Entities -/

/-- The number of entities. -/
def size (t : SymbolTable) : Nat := t.slots.size

/-- The entity of a handle. -/
def entity? (t : SymbolTable) (id : EntityId) : Option Entity := t.slots[id.index]?.map (·.entity)

/-- The kind of the entity of a handle. -/
def kind? (t : SymbolTable) (id : EntityId) : Option EntityKind := (t.entity? id).map Entity.kind

/-- Whether the entity of a handle is in use. -/
def isInUse (t : SymbolTable) (id : EntityId) : Bool :=
  match t.slots[id.index]? with
  | some slot => slot.inUse
  | none => false

/-- All handles, in order. -/
def ids (t : SymbolTable) : List EntityId := (List.range t.size).map EntityId.mk

/-- The handles of one kind, in order. -/
def idsOf (t : SymbolTable) (kind : EntityKind) : List EntityId :=
  t.ids.filter fun id => t.kind? id == some kind

/-- The handles in use, in order. -/
def idsInUse (t : SymbolTable) : List EntityId := t.ids.filter t.isInUse

/-- Change the entity of a handle. -/
def modify (t : SymbolTable) (id : EntityId) (f : Entity → Entity) : SymbolTable :=
  { t with slots := t.slots.modify id.index fun slot => { slot with entity := f slot.entity } }

/-- Exchange the entity of a handle. -/
def set (t : SymbolTable) (id : EntityId) (e : Entity) : SymbolTable := t.modify id fun _ => e

/-- Mark the entity of a handle as in use. -/
def mark (t : SymbolTable) (id : EntityId) : SymbolTable :=
  { t with slots := t.slots.modify id.index fun slot => { slot with inUse := true } }

/-- The handle that the next entity gets. -/
def nextId (t : SymbolTable) : EntityId := ⟨t.size⟩

/-- Add an entity without a name. -/
def push (t : SymbolTable) (e : Entity) : SymbolTable :=
  { t with slots := t.slots.push { entity := e } }

/-! ## Names -/

/-- What a name stands for. -/
def lookup? (t : SymbolTable) (name : String) : Option Symbol := t.names.find? name

/-- The entity that a name stands for. -/
def lookupType? (t : SymbolTable) (name : String) : Option EntityId :=
  match t.lookup? name with
  | some (.type id) => some id
  | _ => none

/-- Where the declaration of a symbol is. -/
def sourceOf? (t : SymbolTable) : Symbol → Option Location
  | .type id => (t.entity? id).map Entity.source
  | .mixin i => t.mixins[i]?.map (·.identity.source)
  | .typedef i => t.typedefs[i]?.map (·.source)

/-- Where a name was declared first. -/
def declaredAt? (t : SymbolTable) (name : String) : Option Location :=
  (t.lookup? name).bind t.sourceOf?

/-- Declare an entity.  If its name is taken, nothing is declared and the answer
is the place of the first declaration. -/
def insert (t : SymbolTable) (e : Entity) : Except Location SymbolTable :=
  match t.declaredAt? e.key with
  | some previous => .error previous
  | none => .ok { t.push e with names := t.names.put e.key (.type t.nextId) }

/-- Declare a mixin, in the same way. -/
def insertMixin (t : SymbolTable) (d : Mixin) : Except Location SymbolTable :=
  match t.declaredAt? d.identity.idl with
  | some previous => .error previous
  | none => .ok { t with
      mixins := t.mixins.push d
      names := t.names.put d.identity.idl (.mixin t.mixins.size) }

/-- Declare a typedef, in the same way. -/
def insertTypedef (t : SymbolTable) (d : Typedef) : Except Location SymbolTable :=
  match t.declaredAt? d.idl with
  | some previous => .error previous
  | none => .ok { t with
      typedefs := t.typedefs.push d
      names := t.names.put d.idl (.typedef t.typedefs.size) }

/-- Exchange what a typedef stands for. -/
def setTypedef (t : SymbolTable) (index : Nat) (type : TypeRef) : SymbolTable :=
  { t with typedefs := t.typedefs.modify index fun d => { d with type } }

/-- Add members to a mixin. -/
def extendMixin (t : SymbolTable) (index : Nat) (members : Members) : SymbolTable :=
  { t with mixins := t.mixins.modify index fun d => { d with members := d.members ++ members } }

/-! ## Similar names -/

/-- How many edits a suggestion may need: two, and fewer than the name has
characters. -/
def editLimit (name : String) : Nat := min (name.length - 1) 2

/-- The first of the pairs with the least number. -/
def firstLeast : List (Nat × String) → Option (Nat × String)
  | [] => none
  | p :: ps =>
      match firstLeast ps with
      | none => some p
      | some q => if q.1 < p.1 then some q else some p

/-- The declared type or typedef whose name is closest to `name`.  Of names that
are equally close the first one declared wins. -/
def similarName? (t : SymbolTable) (name : String) : Option String :=
  let candidates := t.names.entries.filter fun (_, symbol) => symbol.isNamedType
  let distances := candidates.map fun (other, _) => (Text.editDistance name other, other)
  (firstLeast (distances.filter (·.1 ≤ editLimit name))).map (·.2)

/-! ## Promises -/

/-- The promise with an element of this spelling. -/
def promise? (t : SymbolTable) (key : String) : Option PromiseInstance := t.promises.find? key

/-- Record a promise under a spelling. -/
def putPromise (t : SymbolTable) (key : String) (made : PromiseInstance) : SymbolTable :=
  { t with promises := t.promises.put key made }

/-! ## What the operations leave alone -/

@[simp] theorem size_modify (t : SymbolTable) (id : EntityId) (f : Entity → Entity) :
    (t.modify id f).size = t.size := by
  simp [modify, size]

@[simp] theorem size_set (t : SymbolTable) (id : EntityId) (e : Entity) :
    (t.set id e).size = t.size := size_modify t id _

@[simp] theorem size_mark (t : SymbolTable) (id : EntityId) : (t.mark id).size = t.size := by
  simp [mark, size]

@[simp] theorem size_push (t : SymbolTable) (e : Entity) : (t.push e).size = t.size + 1 := by
  simp [push, size]

end SymbolTable

end IdlModel
