/-!
# Locations

A place in a file of definitions or in a script, as messages show it.
-/

namespace IdlModel

/-- A line of a file. -/
structure Location where
  /-- The name of the file. -/
  file : String := ""
  /-- The line. -/
  line : Nat := 0
deriving DecidableEq, Repr, Inhabited

/-- A location as `file:line`. -/
def Location.text (l : Location) : String := l.file ++ ":" ++ toString l.line

end IdlModel
