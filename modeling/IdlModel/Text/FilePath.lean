import IdlModel.Text.CodeRange

/-!
# File paths

A path is a text in which `/` separates components.  Empty components and `.`
say nothing, except for a `.` at the very start.  The last component names a
file unless it is `..`, that first `.`, or missing.  The extension of a file
name starts at its last dot, but a dot at the start of the name begins none.
-/

namespace IdlModel.Text

/-- The components of a path that say something, without a leading `.`. -/
def pathComponents (path : List Char) : List (List Char) :=
  (splitAt '/' path).filter fun part => !part.isEmpty && part != ['.']

/-- The name of the file at the end of a path. -/
def fileName? (path : List Char) : Option (List Char) :=
  match (pathComponents path).getLast? with
  | some ['.', '.'] => none
  | last => last

/-- A file name without its extension. -/
def withoutExtension (name : List Char) : List Char :=
  match (name.reverse.dropWhile (· != '.')).tail.reverse with
  | [] => name
  | stem => stem

/-- The name of the file at the end of a path, without its extension. -/
def fileStem? (path : String) : Option String :=
  (fileName? path.toList).map fun name => String.ofList (withoutExtension name)

example : fileStem? "webidl/html.idl" = some "html" := by decide
example : fileStem? ".hidden" = some ".hidden" := by decide
example : fileStem? "a.b.c/./" = some "a.b" := by decide
example : fileStem? "x/.." = none := by decide

end IdlModel.Text
