import IdlModel.Compilation

/-!
# Linking

The third stage puts handles in the place of names and finds out which entities
are *in use*: the interfaces and everything that they lead to.  An entity is
*visited* once, when it is reached first.  One that is never reached is never
looked at, so nothing is reported for it.

A visit marks the entity as in use and then goes through four steps.

1. The parent is resolved.  A name becomes a handle if it stands for an entity
   of the same kind.  If the entity is among the ancestors of its parent, the
   parent is cut off and the cycle is reported.
2. A dictionary takes over the members of all its ancestors, the most distant
   first, as they are at this time.
3. The types of the entity are resolved, on a copy that is put back at the end.
   A name of an entity becomes its handle, and the entity is visited at once.  A
   name of a typedef becomes what the typedef stands for, resolved in the same
   way.  If nothing in it stays unresolved, the typedef itself is replaced by
   the result.  Any other name stays and is reported.
4. The parent is visited.

No visit starts while there are more errors than the settings allow.

Two things nest here, visits and the expansion of typedefs.  Both recursions are
bounded by budgets that cannot run out.  A visit that does anything marks one
more entity, so the number of entities is enough for visits.  A name of a typedef
is never expanded within its own expansion, so the number of names is enough for
these.
-/

namespace IdlModel

/-- The generic types that are known. -/
def knownGenerics : List String := ["Promise", "FrozenArray", "ObservableArray"]

/-! ## Ancestors -/

namespace SymbolTable

/-- The parent of an entity.  A name counts if it stands for an entity of the
same kind. -/
def parentOf? (t : SymbolTable) (id : EntityId) : Option EntityId := do
  let e ← t.entity? id
  match ← e.parent? with
  | .unlinked name => (t.lookupType? name).filter (t.kind? · == some e.kind)
  | parent => parent.entity?

/-- The parents of `current` and of its parents, up to `fuel` of them.  The list
ends behind the first one that is `start` or occurred before. -/
def chainFrom (t : SymbolTable) (start : EntityId) :
    (fuel : Nat) → (before : List EntityId) → (current : EntityId) → List EntityId
  | 0, _, _ => []
  | fuel + 1, before, current =>
      match t.parentOf? current with
      | none => []
      | some parent =>
          if parent = start || before.contains parent then [parent]
          else parent :: t.chainFrom start fuel (parent :: before) parent

/-- The ancestors of an entity, the nearest first.  On a cycle the list ends with
the first one that it meets again. -/
def ancestors (t : SymbolTable) (id : EntityId) : List EntityId :=
  t.chainFrom id (t.size + 1) [] id

/-- The list up to the first element that occurred before. -/
def untilRepeated : (seen : List EntityId) → List EntityId → List EntityId
  | _, [] => []
  | seen, x :: xs => if seen.contains x then [] else x :: untilRepeated (x :: seen) xs

/-- The members of a dictionary and of all its ancestors, the most distant
first. -/
def lineageFields (t : SymbolTable) (id : EntityId) : List Field :=
  let chain := untilRepeated [] (id :: t.ancestors id)
  chain.reverse.flatMap fun x => ((t.entity? x).map Entity.fields).getD []

end SymbolTable

namespace Entity

/-- An entity with another parent.  Enumerations and callbacks have none. -/
def setParent (parent : Option EntityId) : Entity → Entity
  | .interface d => .interface { d with parent := parent.map (.entity .interface) }
  | .dictionary d => .dictionary { d with parent := parent.map (.entity .dictionary) }
  | e => e

/-- A dictionary with other inherited members.  No other entity changes. -/
def setInherited (fields : List Field) : Entity → Entity
  | .dictionary d => .dictionary { d with inherited := fields }
  | e => e

end Entity

/-! ## The linker -/

/-- A compilation that is being linked. -/
structure Linker where
  /-- The compilation. -/
  compilation : Compilation
  /-- The number of entities visited. -/
  visits : Nat := 0

/-- An action of the linker. -/
abbrev LinkM := StateM Linker

namespace Linker

/-- The symbol table. -/
def table (l : Linker) : SymbolTable := l.compilation.table

/-- The linker with another table. -/
def withTable (l : Linker) (table : SymbolTable) : Linker :=
  { l with compilation := { l.compilation with table } }

/-- Report an issue at a place. -/
def report (issue : Issue) (at_ : Location) : LinkM Unit :=
  modify fun l => { l with compilation := l.compilation.report issue at_ }

/-- The diagnostic for a name that stands for no type. -/
def unresolvedDiagnostic (t : SymbolTable) (name : String) (at_ : Location) : Diagnostic :=
  let d : Diagnostic := { issue := .unresolvedType name, location := some at_ }
  match t.lookup? name with
  | some (.mixin _) => { d with notes := ["`" ++ name ++ "` is a mixin, which can only be included"] }
  | _ =>
      match t.similarName? name with
      | some similar => { d with help := ["did you mean `" ++ similar ++ "`?"] }
      | none => d

/-- Report a name that stands for no type. -/
def reportUnresolved (name : String) (at_ : Location) : LinkM Unit :=
  modify fun l =>
    { l with compilation := l.compilation.add (unresolvedDiagnostic l.table name at_) }

/-! ### Parents -/

/-- The issue of a parent that is no entity of the same kind. -/
def wrongParent (kind : EntityKind) (name parent : String) : Issue :=
  match kind with
  | .dictionary => .inheritsNonDictionary name parent
  | _ => .inheritsNonInterface name parent

/-- The handle of the parent `parent` of an entity, or none with a report. -/
def resolveParent (e : Entity) (parent : TypeRef) : LinkM (Option EntityId) :=
  match parent with
  | .unlinked name => do
      let t := (← get).table
      match t.lookup? name with
      | none => do
          reportUnresolved name e.source
          return none
      | some symbol =>
          let found :=
            match symbol with
            | .type id => if t.kind? id = some e.kind then some id else none
            | _ => none
          match found with
          | some id => return some id
          | none => do
              report (wrongParent e.kind e.key name) e.source
              return none
  | parent => return parent.entity?

/-- Cut a parent off that has the entity `id` among its ancestors. -/
def cutCycle (e : Entity) (id : EntityId) : Option EntityId → LinkM (Option EntityId)
  | none => return none
  | some parent => do
      if parent = id || ((← get).table.ancestors parent).contains id then
        report (.inheritanceCycle e.key) e.source
        return none
      else return some parent

/-- Resolve the parent of an entity, and give a dictionary its inherited
members.  The answer is the parent. -/
def linkParent (id : EntityId) : LinkM (Option EntityId) := do
  match (← get).table.entity? id with
  | none => return none
  | some e =>
      match e.parent? with
      | none => return none
      | some parent => do
          let parent ← resolveParent e parent
          let parent ← cutCycle e id parent
          modify fun l =>
            let inherited := (parent.map l.table.lineageFields).getD []
            l.withTable (l.table.modify id fun e => (e.setParent parent).setInherited inherited)
          return parent

/-! ### Types -/

/-- Report a generic type that is not known. -/
def checkGeneric (at_ : Location) : TypeRef → LinkM Unit
  | .parametrized name _ =>
      if knownGenerics.contains name then pure () else report (.unknownGeneric name) at_
  | _ => pure ()

/-- Resolve a name.  `visit` visits an entity, and `expand` resolves what a
typedef stands for. -/
def resolveName (visit : EntityId → LinkM Unit) (at_ : Location)
    (expand : (name : String) → (index : Nat) → Typedef → LinkM TypeRef) (name : String) :
    LinkM TypeRef := do
  let table := (← get).table
  match table.lookup? name with
  | some (.type id) => do
      visit id
      match (← get).table.entity? id with
      | some e => return e.toRef id
      | none => return .unlinked name
  | some (.typedef i) =>
      match table.typedefs[i]? with
      | some d => expand name i d
      | none => return .unlinked name
  | _ => do
      reportUnresolved name at_
      return .unlinked name

/-- Resolve a part of a type whose own parts are resolved. -/
def resolvePart (visit : EntityId → LinkM Unit) (onName : String → LinkM TypeRef) :
    TypeRef → LinkM TypeRef
  | .entity kind id => do
      visit id
      return .entity kind id
  | .unlinked name => onName name
  | part => return part

/-- Put what a typedef stands for in its place, unless a name is left. -/
def memoize (index : Nat) (expanded : TypeRef) : LinkM TypeRef := do
  unless expanded.hasName do
    modify fun l => l.withTable (l.table.setTypedef index expanded)
  return expanded

/-- Resolve a type.  `visit` visits an entity, `budget` bounds the nesting of
typedefs and `opened` are the typedefs being expanded. -/
def resolve (visit : EntityId → LinkM Unit) (at_ : Location) :
    (budget : Nat) → (opened : List String) → TypeRef → LinkM TypeRef
  | budget, opened, t =>
      t.rebuildM (checkGeneric at_) <| resolvePart visit <| resolveName visit at_
        fun name index d =>
          if opened.contains name then do
            report (.typedefCycle name) d.source
            return .unlinked name
          else
            match budget with
            | 0 => return .unlinked name
            | budget + 1 => do
                memoize index (← resolve visit at_ budget (name :: opened) d.type)

/-! ### Visits -/

/-- Whether a visit of an entity has something to do. -/
def isDue (l : Linker) (id : EntityId) : Bool :=
  !l.compilation.isOverLimit && id.index < l.table.size && !l.table.isInUse id

/-- Resolve the types of an entity, on a copy that is put back at the end. -/
def linkTypes (visit : EntityId → LinkM Unit) (id : EntityId) : LinkM Unit := do
  match (← get).table.entity? id with
  | none => pure ()
  | some e => do
      let names := (← get).table.names.size
      let linked ← e.mapTypesM fun at_ t => resolve visit at_ names [] t
      modify fun l => l.withTable (l.table.set id linked)

/-- Take an entity into use. -/
def enter (id : EntityId) : LinkM Unit :=
  modify fun l => { l.withTable (l.table.mark id) with visits := l.visits + 1 }

/-- Visit a parent, if there is one. -/
def visitParent (visit : EntityId → LinkM Unit) : Option EntityId → LinkM Unit
  | none => pure ()
  | some parent => visit parent

/-- Visit an entity.  `budget` bounds the nesting of visits. -/
def visit : (budget : Nat) → EntityId → LinkM Unit
  | 0, _ => pure ()
  | budget + 1, id => do
      if (← get).isDue id then do
        enter id
        let parent ← linkParent id
        linkTypes (visit budget) id
        visitParent (visit budget) parent

/-- Link an entity and everything that it leads to, then poll the log. -/
def link (id : EntityId) : EStateM Stop Linker Unit := do
  modify fun l => (visit l.table.size id l).2
  if (← get).compilation.isOverLimit then throw .tooManyErrors

/-- Link every interface, in order. -/
def linkRoots : EStateM Stop Linker Unit := do
  ((← get).table.idsOf .interface).forM link

end Linker

/-- Run an action of a linker that starts without visits. -/
def withLinker (action : EStateM Stop Linker Unit) : CompileM Unit := fun c =>
  match action { compilation := c } with
  | .ok _ l => .ok () l.compilation
  | .error stop l => .error stop l.compilation

/-- Link every interface and what it leads to. -/
def linkInterfaces : CompileM Unit := withLinker Linker.linkRoots

end IdlModel
