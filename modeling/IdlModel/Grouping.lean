import IdlModel.CompiledModel

/-!
# Grouping entities

The packages of a compiled model, collected in one pass over the entities in use.

* An entity goes to the end of the list of its kind in its package.
* A package comes into being with its first entity.  It is put where the order of names wants it.
* At the end the lists are sorted by IDL names.  Sorting leaves entities with equal names in the
  order in which they came, which is that of their handles.

`CompiledModel.ofTable` says what comes out of the pass, list by list.
-/

namespace IdlModel

namespace PackageContents

/-- Put an entity at the end of the list of its kind. -/
def add (p : PackageContents) (id : EntityId) : EntityKind → PackageContents
  | .enumeration => { p with enumerations := p.enumerations ++ [id] }
  | .callback => { p with callbacks := p.callbacks ++ [id] }
  | .dictionary => { p with dictionaries := p.dictionaries ++ [id] }
  | .interface => { p with interfaces := p.interfaces ++ [id] }

/-- Sort every list by IDL names. -/
def sorted (p : PackageContents) (t : SymbolTable) : PackageContents :=
  let sort (ids : List EntityId) := ids.mergeSort fun a b => t.keyOf a ≤ t.keyOf b
  { enumerations := sort p.enumerations
    callbacks := sort p.callbacks
    dictionaries := sort p.dictionaries
    interfaces := sort p.interfaces }

end PackageContents

namespace CompiledModel

/-- Enter an entity into packages that stand in the order of their names. -/
def enter (package : String) (kind : EntityKind) (id : EntityId) :
    List (String × PackageContents) → List (String × PackageContents)
  | [] => [(package, PackageContents.add {} id kind)]
  | (name, contents) :: rest =>
      if package < name then (package, PackageContents.add {} id kind) :: (name, contents) :: rest
      else if package = name then (name, contents.add id kind) :: rest
      else (name, contents) :: enter package kind id rest

/-- Enter an entity of a table. -/
def group (t : SymbolTable) (packages : List (String × PackageContents)) (id : EntityId) :
    List (String × PackageContents) :=
  match t.entity? id with
  | some e => enter e.identity.package e.kind id packages
  | none => packages

/-- The packages of a table, with their contents. -/
def grouped (t : SymbolTable) : List (String × PackageContents) :=
  (t.idsInUse.foldl (group t) []).map fun (name, contents) => (name, contents.sorted t)

end CompiledModel

end IdlModel
