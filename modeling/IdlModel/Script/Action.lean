import IdlModel.Model.TypeRef
import IdlModel.Pattern.Basic

/-!
# Actions

What a script does to a model.  An *edit* changes one entity.  A *selection*
makes the same edit at every entity of a kind whose name a pattern accepts.  A
*block* is a list of actions for one type.
-/

namespace IdlModel.Script

/-- A change of one entity. -/
inductive Edit where
  /-- Set a property. -/
  | setProperty (name value : String)
  /-- Rename a member. -/
  | rename (member newName : String)
  /-- Override the type of a member. -/
  | changeType (member type : String)
  /-- Give the constants their usual names. -/
  | patch
  /-- Replace a part of a property. -/
  | replace (property old new : String)
  /-- Declare an event. -/
  | event (name type : String)
deriving DecidableEq, Repr

/-- The name of an edit. -/
def Edit.describe : Edit → String
  | .setProperty .. => "property"
  | .rename .. => "rename"
  | .changeType .. => "changetype"
  | .patch => "patch"
  | .replace .. => "replace"
  | .event .. => "event"

/-- The kinds that a selection is about. -/
inductive KindFilter where
  | any
  | only (kind : EntityKind)
deriving DecidableEq, Repr

namespace KindFilter

/-- The word for a filter. -/
def text : KindFilter → String
  | any => "any"
  | only kind => kind.text

/-- The filter of a word. -/
def ofText? (word : String) : Option KindFilter :=
  [any, only .interface, only .enumeration, only .callback, only .dictionary].find? (·.text == word)

/-- Whether a filter lets a kind pass. -/
def passes : KindFilter → EntityKind → Bool
  | any, _ => true
  | only kind, found => kind == found

end KindFilter

/-- An edit for every entity of a kind whose name a pattern accepts. -/
structure Selection where
  /-- The kinds. -/
  filter : KindFilter
  /-- The pattern. -/
  pattern : Pattern
  /-- The edit. -/
  edit : Edit
deriving Repr

/-- What a statement does. -/
inductive Effect where
  | edit (e : Edit)
  | select (s : Selection)
deriving Repr

/-- The name of an effect. -/
def Effect.describe : Effect → String
  | .edit e => e.describe
  | .select _ => "on"

/-- A statement with its line. -/
structure Action where
  /-- What it does. -/
  effect : Effect
  /-- Its line. -/
  line : Nat
deriving Repr

/-- The actions for one type. -/
structure Block where
  /-- The name of the type. -/
  name : String
  /-- The line of its header. -/
  line : Nat
  /-- The actions. -/
  actions : List Action
deriving Repr

/-- A part of a script. -/
inductive Item where
  | block (b : Block)
  /-- A selection outside any block. -/
  | global (s : Selection) (line : Nat)
deriving Repr

/-- The text of a script and the name that messages know it by. -/
structure Source where
  /-- The name. -/
  file : String
  /-- The text. -/
  text : String
deriving DecidableEq, Repr

end IdlModel.Script

namespace IdlModel

/-- A script. -/
structure Script where
  /-- The name that messages know it by. -/
  file : String
  /-- Its parts. -/
  items : List Script.Item
deriving Repr

end IdlModel
