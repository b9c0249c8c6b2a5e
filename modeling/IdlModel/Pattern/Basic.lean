import IdlModel.Pattern.Meaning
import IdlModel.Pattern.Reader

/-!
# Patterns

A pattern selects names.  It is read once, and accepts a name if it matches
somewhere in it.
-/

namespace IdlModel

/-- A pattern. -/
structure Pattern where
  /-- The text of the pattern. -/
  text : String
  /-- What it matches. -/
  expr : Pattern.Expr
deriving Repr

namespace Pattern

/-- Read a pattern. -/
def ofText (text : String) : Except Fault Pattern := do
  let tree ← Tree.read text
  return { text, expr := ← tree.expr }

/-- Whether a pattern matches somewhere in a name. -/
def accepts (p : Pattern) (name : String) : Bool := p.expr.occursIn name

end Pattern

end IdlModel
