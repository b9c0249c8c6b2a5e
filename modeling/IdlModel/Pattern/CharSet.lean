import IdlModel.Pattern.Property
import IdlModel.Text.LetterCase

/-!
# Sets of characters

The sets that a single place of a pattern can match, as terms.  `contains`
decides membership term by term, so a set is never listed.

A *folded* set holds every character that differs from a member at most in
case.
-/

namespace IdlModel.Pattern

/-- A set of characters. -/
inductive CharSet where
  /-- No character. -/
  | empty
  /-- The characters from one to another, both among them. -/
  | range (first last : Char)
  /-- The characters with a property. -/
  | property (p : Property)
  /-- The decimal digits. -/
  | digit
  /-- The characters of words. -/
  | wordPart
  | union (s t : CharSet)
  | inter (s t : CharSet)
  | diff (s t : CharSet)
  | symmDiff (s t : CharSet)
  | compl (s : CharSet)
  /-- Closed under the folding of case. -/
  | folded (s : CharSet)
  /-- Closed under the folding of case in ASCII. -/
  | foldedAscii (s : CharSet)
deriving Repr

namespace CharSet

/-- A character in ASCII with the other one of its two cases, if it has two. -/
def asciiOrbit (c : Char) : List Char :=
  if Text.isAsciiLetter c then [c.toLower, c.toUpper] else [c]

/-- Whether a character is in the set. -/
def contains : CharSet → Char → Bool
  | empty, _ => false
  | range first last, c => first ≤ c && c ≤ last
  | property p, c => p.holds c
  | digit, c => Text.isDigit c
  | wordPart, c => Text.isWordPart c
  | union s t, c => s.contains c || t.contains c
  | inter s t, c => s.contains c && t.contains c
  | diff s t, c => s.contains c && !t.contains c
  | symmDiff s t, c => s.contains c != t.contains c
  | compl s, c => !s.contains c
  | folded s, c => (Text.caseOrbit c).any s.contains
  | foldedAscii s, c => (asciiOrbit c).any s.contains

/-- A single character. -/
def single (c : Char) : CharSet := range c c

/-- The union of some ranges. -/
def ranges : List (Char × Char) → CharSet
  | [] => empty
  | (first, last) :: rest => union (range first last) (ranges rest)

end CharSet

end IdlModel.Pattern
