import IdlModel.Model.SymbolTable

/-!
# Spelling types

A reference is spelled as in the definitions.  An entity is spelled by its IDL
name, but an interface that was made for a promise is spelled as the promise
that it stands for.

The *element name* of a reference is a part of an exported name: every
constructor becomes a word, an entity contributes its exported name, and a
primitive type its name in the generated code.
-/

namespace IdlModel

namespace TypeRef

mutual

/-- The spelling of a reference, with a spelling for entities. -/
def spellingWith (entityName : EntityId → String) : TypeRef → String
  | .primitive p => p.idlName
  | .void => "void"
  | .any => "any"
  | .sequence element => "sequence<" ++ spellingWith entityName element ++ ">"
  | .record key value =>
      "record<" ++ spellingWith entityName key ++ ", " ++ spellingWith entityName value ++ ">"
  | .parametrized name args =>
      name ++ "<" ++ ", ".intercalate (spellingsWith entityName args) ++ ">"
  | .union members => "(" ++ " or ".intercalate (spellingsWith entityName members) ++ ")"
  | .nullable inner => spellingWith entityName inner ++ "?"
  | .entity _ id => entityName id
  | .unlinked name => name
  | .placeholder hole => hole.text

/-- The spellings of several references. -/
def spellingsWith (entityName : EntityId → String) : List TypeRef → List String
  | [] => []
  | t :: ts => spellingWith entityName t :: spellingsWith entityName ts

end

mutual

/-- The element name of a reference, with a name for entities. -/
def elementNameWith (entityName : EntityId → String) : TypeRef → String
  | .primitive p => p.displayName
  | .void => "Void"
  | .any => "Any"
  | .sequence element => "Sequence" ++ elementNameWith entityName element
  | .record key value =>
      "Record" ++ elementNameWith entityName key ++ elementNameWith entityName value
  | .parametrized name args =>
      displayName name ++ String.join (elementNamesWith entityName args)
  | .union members => "Union" ++ "Or".intercalate (elementNamesWith entityName members)
  | .nullable inner => "Nil" ++ elementNameWith entityName inner
  | .entity _ id => entityName id
  | .unlinked name => displayName name
  | .placeholder hole => hole.text

/-- The element names of several references. -/
def elementNamesWith (entityName : EntityId → String) : List TypeRef → List String
  | [] => []
  | t :: ts => elementNameWith entityName t :: elementNamesWith entityName ts

end

end TypeRef

namespace SymbolTable

/-- The spelling of an entity. -/
def entitySpelling (t : SymbolTable) (id : EntityId) : String :=
  match t.entity? id with
  | none => ""
  | some e =>
      match e.identity.template with
      | some (.madeFor key) => "Promise<" ++ key ++ ">"
      | _ => e.key

/-- The spelling of a reference. -/
def spelling (t : SymbolTable) (ref : TypeRef) : String := ref.spellingWith t.entitySpelling

/-- The element name of a reference. -/
def elementName (t : SymbolTable) (ref : TypeRef) : String :=
  ref.elementNameWith fun id => ((t.entity? id).map (·.identity.name)).getD ""

end SymbolTable

end IdlModel
