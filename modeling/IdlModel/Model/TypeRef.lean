import IdlModel.Model.Primitive
import IdlModel.Syntax.TypeExpr

/-!
# Type references

What stands for a type in the model.  A reference starts out with the *names*
of the written type in it.  Linking puts the *handle* of an entity in the place
of a name.  *Placeholders* occur only inside the template of promises.

Three ways to walk a reference are used by the rest of the library.

* `rebuildM` rebuilds it with an action before and after each part, parts from
  left to right.
* `mapLeaves` exchanges the parts that have no parts.
* `anyLeaf` asks whether one of these satisfies a test.
-/

namespace IdlModel

open Syntax (TypeExpr)

/-- The handle of an entity: its place in the symbol table. -/
structure EntityId where
  /-- The place. -/
  index : Nat
deriving DecidableEq, Repr, Inhabited

/-- The kinds of entities. -/
inductive EntityKind where
  | interface | dictionary | enumeration | callback
deriving DecidableEq, Repr

/-- The keyword of a kind. -/
def EntityKind.text : EntityKind → String
  | .interface => "interface"
  | .dictionary => "dictionary"
  | .enumeration => "enum"
  | .callback => "callback"

/-- The variable parts of the template of promises. -/
inductive Placeholder where
  /-- The element of the promise. -/
  | element
  /-- The interface of the promise itself. -/
  | promise
  /-- The callback for the value. -/
  | onFulfilled
  /-- The callback for the failure. -/
  | onRejected
deriving DecidableEq, Repr

/-- The name of a placeholder. -/
def Placeholder.text : Placeholder → String
  | .element => "Element"
  | .promise => "Promise"
  | .onFulfilled => "OnFulfilled"
  | .onRejected => "OnRejected"

/-- A reference to a type. -/
inductive TypeRef where
  | primitive (type : Primitive)
  | void
  | any
  | sequence (element : TypeRef)
  | record (key value : TypeRef)
  /-- A generic type with arguments, such as `FrozenArray<Node>`. -/
  | parametrized (name : String) (args : List TypeRef)
  | union (members : List TypeRef)
  | nullable (inner : TypeRef)
  /-- An entity of a kind. -/
  | entity (kind : EntityKind) (id : EntityId)
  /-- A name that is not linked. -/
  | unlinked (name : String)
  | placeholder (hole : Placeholder)
deriving Inhabited, Repr

namespace TypeRef

/-! ## From written types -/

/-- The reference of a single name. -/
def ofName (name : String) : TypeRef :=
  if name = "void" ∨ name = "undefined" then .void
  else if name = "any" then .any
  else
    match Primitive.ofIdl? name with
    | some p => .primitive p
    | none => .unlinked name

mutual

/-- The reference of a written type.  Names that are not primitive stay names. -/
def ofExpr : TypeExpr → TypeRef
  | .named name => ofName name
  | .sequence element => .sequence (ofExpr element)
  | .record key value => .record (ofExpr key) (ofExpr value)
  | .generic name args => .parametrized name (ofExprs args)
  | .union members => .union (ofExprs members)
  | .nullable inner => .nullable (ofExpr inner)

/-- The references of several written types. -/
def ofExprs : List TypeExpr → List TypeRef
  | [] => []
  | t :: ts => ofExpr t :: ofExprs ts

end

/-! ## Questions -/

/-- The handle of a reference to an entity. -/
def entity? : TypeRef → Option EntityId
  | .entity _ id => some id
  | _ => none

/-- Whether a reference is `Promise<...>`. -/
def isPromise : TypeRef → Bool
  | .parametrized name _ => name == "Promise"
  | _ => false

mutual

/-- Whether a part without parts satisfies a test. -/
def anyLeaf (test : TypeRef → Bool) : TypeRef → Bool
  | .sequence element => anyLeaf test element
  | .record key value => anyLeaf test key || anyLeaf test value
  | .parametrized _ args => anyLeafOf test args
  | .union members => anyLeafOf test members
  | .nullable inner => anyLeaf test inner
  | leaf => test leaf

/-- Whether one of several references has such a part. -/
def anyLeafOf (test : TypeRef → Bool) : List TypeRef → Bool
  | [] => false
  | t :: ts => anyLeaf test t || anyLeafOf test ts

end

/-- Whether a reference is a name. -/
def isName : TypeRef → Bool
  | .unlinked _ => true
  | _ => false

/-- Whether a name is left in a reference. -/
def hasName (t : TypeRef) : Bool := t.anyLeaf isName

/-! ## Rebuilding -/

mutual

/-- Exchange the parts that have no parts. -/
def mapLeaves (f : TypeRef → TypeRef) : TypeRef → TypeRef
  | .sequence element => .sequence (mapLeaves f element)
  | .record key value => .record (mapLeaves f key) (mapLeaves f value)
  | .parametrized name args => .parametrized name (mapLeavesOf f args)
  | .union members => .union (mapLeavesOf f members)
  | .nullable inner => .nullable (mapLeaves f inner)
  | leaf => f leaf

/-- Exchange them in several references. -/
def mapLeavesOf (f : TypeRef → TypeRef) : List TypeRef → List TypeRef
  | [] => []
  | t :: ts => mapLeaves f t :: mapLeavesOf f ts

end

mutual

/-- Rebuild a reference from its parts, which are rebuilt first.  `enter` acts on
a reference before its parts, `leave` on the rebuilt one after them. -/
def rebuildM {m : Type → Type} [Monad m] (enter : TypeRef → m Unit)
    (leave : TypeRef → m TypeRef) : TypeRef → m TypeRef
  | .sequence element => do
      enter (.sequence element)
      leave (.sequence (← rebuildM enter leave element))
  | .record key value => do
      enter (.record key value)
      let key ← rebuildM enter leave key
      leave (.record key (← rebuildM enter leave value))
  | .parametrized name args => do
      enter (.parametrized name args)
      leave (.parametrized name (← rebuildListM enter leave args))
  | .union members => do
      enter (.union members)
      leave (.union (← rebuildListM enter leave members))
  | .nullable inner => do
      enter (.nullable inner)
      leave (.nullable (← rebuildM enter leave inner))
  | leaf => do
      enter leaf
      leave leaf

/-- Rebuild several references. -/
def rebuildListM {m : Type → Type} [Monad m] (enter : TypeRef → m Unit)
    (leave : TypeRef → m TypeRef) : List TypeRef → m (List TypeRef)
  | [] => pure []
  | t :: ts => do
      let t ← rebuildM enter leave t
      return t :: (← rebuildListM enter leave ts)

end

end TypeRef

end IdlModel
