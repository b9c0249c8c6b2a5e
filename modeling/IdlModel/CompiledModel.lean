import IdlModel.Model.ModelJson

/-!
# The compiled model

What a generator of bindings gets: the entities in use, listed by package and
kind, and the table that their handles point into.

Packages come in ascending order of their names.  Within a package the entities
of a kind come in ascending order of their IDL names, and those with equal names
in the order of their handles.  A package without entities is not listed.
-/

namespace IdlModel

open Json

/-- The entities of a package. -/
structure PackageContents where
  /-- The enumerations. -/
  enumerations : List EntityId := []
  /-- The callbacks. -/
  callbacks : List EntityId := []
  /-- The dictionaries. -/
  dictionaries : List EntityId := []
  /-- The interfaces. -/
  interfaces : List EntityId := []
deriving DecidableEq, Repr

namespace PackageContents

/-- The number of entities. -/
def size (p : PackageContents) : Nat :=
  p.enumerations.length + p.callbacks.length + p.dictionaries.length + p.interfaces.length

/-- Whether there is no entity. -/
def isEmpty (p : PackageContents) : Bool := p.size == 0

/-- The list of a kind. -/
def ofKind (p : PackageContents) : EntityKind → List EntityId
  | .enumeration => p.enumerations
  | .callback => p.callbacks
  | .dictionary => p.dictionaries
  | .interface => p.interfaces

/-- The lists as JSON. -/
def toJson (p : PackageContents) : Json :=
  .obj [("enums", ofList EntityId.toJson p.enumerations),
    ("callbacks", ofList EntityId.toJson p.callbacks),
    ("dictionaries", ofList EntityId.toJson p.dictionaries),
    ("interfaces", ofList EntityId.toJson p.interfaces)]

end PackageContents

namespace SymbolTable

/-- The package of an entity. -/
def packageOf (t : SymbolTable) (id : EntityId) : String :=
  ((t.entity? id).map (·.identity.package)).getD ""

/-- The IDL name of an entity. -/
def keyOf (t : SymbolTable) (id : EntityId) : String := ((t.entity? id).map Entity.key).getD ""

/-- The entities in use of a package and a kind, by IDL name. -/
def listed (t : SymbolTable) (package : String) (kind : EntityKind) : List EntityId :=
  (t.idsInUse.filter fun id => t.packageOf id == package && t.kind? id == some kind).mergeSort
    fun a b => t.keyOf a ≤ t.keyOf b

/-- The names of the packages of the entities in use, in order. -/
def packageNames (t : SymbolTable) : List String :=
  ((t.idsInUse.map t.packageOf).eraseDups).mergeSort fun a b => a ≤ b

end SymbolTable

/-- A finished model. -/
structure CompiledModel where
  /-- The packages with their contents. -/
  packages : List (String × PackageContents)
  /-- The table of the entities. -/
  table : SymbolTable

namespace CompiledModel

/-- The model of a table. -/
def ofTable (t : SymbolTable) : CompiledModel :=
  { table := t
    packages := t.packageNames.map fun name =>
      (name,
        { enumerations := t.listed name .enumeration
          callbacks := t.listed name .callback
          dictionaries := t.listed name .dictionary
          interfaces := t.listed name .interface }) }

/-- The contents of a package. -/
def package? (m : CompiledModel) (name : String) : Option PackageContents :=
  m.packages.lookup name

/-- The number of listed entities. -/
def entityCount (m : CompiledModel) : Nat := m.packages.foldr (fun (_, p) n => p.size + n) 0

/-- The model as JSON. -/
def toJson (m : CompiledModel) : Json :=
  .obj [("packages", .obj (m.packages.map fun (name, p) => (name, p.toJson))),
    ("model", m.table.toJson)]

/-- The written model. -/
def text (m : CompiledModel) : String := m.toJson.pretty

end CompiledModel

end IdlModel
