/-!
# Edit distance

The least number of insertions, deletions and replacements of single characters
that turn one text into another.  It is computed row by row: the row of a
prefix `p` of the first text holds, for each prefix `q` of the second, the
distance of `p` and `q`.  Only the row before is needed for the next one.
-/

namespace IdlModel.Text

/-- The cells of a row after its first.  `left` is the cell just written, the
list holds the row above from the cell diagonally above on. -/
def rowCells (c : Char) : (left : Nat) → (above : List Nat) → (target : List Char) → List Nat
  | left, diagonal :: up :: above, t :: target =>
      let cell := if c = t then diagonal else 1 + min (min diagonal up) left
      cell :: rowCells c cell (up :: above) target
  | _, _, _ => []

/-- The row of a prefix that is longer by `c`. -/
def nextRow (target : List Char) (row : List Nat) (c : Char) : List Nat :=
  let first := row.headD 0 + 1
  first :: rowCells c first row target

/-- The distance of two lists of characters. -/
def distance (source target : List Char) : Nat :=
  (source.foldl (nextRow target) (List.range (target.length + 1))).getLastD 0

/-- The distance of two texts, counted in characters. -/
def editDistance (a b : String) : Nat := distance a.toList b.toList

example : editDistance "Nod" "Node" = 1 := by decide
example : editDistance "kitten" "sitting" = 3 := by decide
example : editDistance "" "abc" = 3 := by decide

end IdlModel.Text
