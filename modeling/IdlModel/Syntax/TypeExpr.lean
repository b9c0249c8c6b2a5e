/-!
# Written types

A type as it is written in an interface definition, before any name in it is
looked up.
-/

namespace IdlModel.Syntax

/-- A type expression. -/
inductive TypeExpr where
  /-- A name of one or more words: `DOMString`, `unsigned long`, `Node`. -/
  | named (name : String)
  /-- `sequence<element>`. -/
  | sequence (element : TypeExpr)
  /-- `record<key, value>`. -/
  | record (key value : TypeExpr)
  /-- Any other name with arguments, such as `Promise<Node>`. -/
  | generic (name : String) (args : List TypeExpr)
  /-- `(Node or long)`. -/
  | union (members : List TypeExpr)
  /-- `inner?`. -/
  | nullable (inner : TypeExpr)
deriving Inhabited, Repr

end IdlModel.Syntax
