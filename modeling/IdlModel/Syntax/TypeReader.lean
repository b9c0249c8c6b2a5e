import IdlModel.Syntax.TypeExpr
import IdlModel.Text.Letter

/-!
# Reading written types

The grammar of a type expression.  Blanks are spaces and tabs.

    type    ::= blanks (union | single) (blanks "?")?
    union   ::= "(" type (blank+ "or" blank+ type)* blanks ")"
    single  ::= name (blanks "<" type (blanks "," type)* blanks ">")?
    name    ::= word (blank+ word)*

A name goes on with another word only after `unsigned`, `unrestricted` and
`long`, and `long` is followed by `long` alone, which ends the name.  What
follows a type without being part of it is left to the caller: a list ends in
front of a separator that no element follows, and arguments that do not close
are not read as arguments.

Types nest.  The readers recurse on a bound of the nesting depth, and every
level of nesting takes up at least one character, so the length of the text is
bound enough.
-/

namespace IdlModel.Syntax

open Text

/-- A reader returns a value and the text behind it. -/
abbrev Reader (α : Type) := List Char → Option (α × List Char)

/-- A space or a tab. -/
def isSpace (c : Char) : Bool := c == ' ' || c == '\t'

/-- The text without the blanks at its start. -/
def skipSpaces (cs : List Char) : List Char := cs.dropWhile isSpace

/-- The text behind one or more blanks. -/
def someSpaces? : List Char → Option (List Char)
  | c :: cs => if isSpace c then some (skipSpaces cs) else none
  | [] => none

/-- A character that a word starts with. -/
def isWordStart (c : Char) : Bool := isAsciiLetter c || c == '_'

/-- A character that a word goes on with. -/
def isWordRest (c : Char) : Bool := isAsciiAlphanumeric c || c == '_'

/-! ## Names -/

/-- One word of a name. -/
def word : Reader (List Char)
  | c :: cs => if isWordStart c then some (c :: cs.takeWhile isWordRest, cs.dropWhile isWordRest) else none
  | [] => none

/-- The words after `last`.  `fuel` bounds their number. -/
def moreWords : (fuel : Nat) → (last : List Char) → List Char → List (List Char) × List Char
  | 0, _, cs => ([], cs)
  | fuel + 1, last, cs =>
      let isLong := last = "long".toList
      if isLong ∨ last = "unsigned".toList ∨ last = "unrestricted".toList then
        match (someSpaces? cs).bind word with
        | none => ([], cs)
        | some (next, rest) =>
            if isLong then
              if next = "long".toList then ([next], rest) else ([], cs)
            else
              let (more, rest) := moreWords fuel next rest
              (next :: more, rest)
      else ([], cs)

/-- A name: its words with one blank between two. -/
def typeName (cs : List Char) : Option (String × List Char) := do
  let (first, rest) ← word cs
  let (more, rest) := moreWords rest.length first rest
  return (" ".intercalate ((first :: more).map String.ofList), rest)

/-! ## Lists -/

/-- The elements behind the first one.  `fuel` bounds their number. -/
def moreElements {α : Type} (element : Reader α) (separator : List Char → Option (List Char)) :
    (fuel : Nat) → List Char → List α × List Char
  | 0, cs => ([], cs)
  | fuel + 1, cs =>
      match (separator cs).bind element with
      | none => ([], cs)
      | some (x, rest) =>
          let (xs, rest) := moreElements element separator fuel rest
          (x :: xs, rest)

/-- One or more elements with a separator between two. -/
def elements {α : Type} (element : Reader α) (separator : List Char → Option (List Char))
    (cs : List Char) : Option (List α × List Char) := do
  let (x, rest) ← element cs
  let (xs, rest) := moreElements element separator rest.length rest
  return (x :: xs, rest)

/-- The text behind blanks and the character `c`. -/
def mark? (c : Char) (cs : List Char) : Option (List Char) :=
  match skipSpaces cs with
  | d :: rest => if d = c then some rest else none
  | [] => none

/-- The text behind `or` with blanks on both sides. -/
def orWord? (cs : List Char) : Option (List Char) :=
  match someSpaces? cs with
  | some ('o' :: 'r' :: rest) => someSpaces? rest
  | _ => none

/-! ## Types -/

/-- A name with arguments.  `sequence` takes one and `record` two, everything
else is generic. -/
def TypeExpr.applied (name : String) (args : List TypeExpr) : TypeExpr :=
  match args with
  | [element] => if name = "sequence" then .sequence element else .generic name args
  | [key, value] => if name = "record" then .record key value else .generic name args
  | _ => .generic name args

/-- The arguments of a name, if they close. -/
def arguments (element : Reader TypeExpr) (cs : List Char) :
    Option (List TypeExpr × List Char) := do
  let (args, rest) ← elements element (mark? ',') (← mark? '<' cs)
  return (args, ← mark? '>' rest)

/-- A name, with arguments or without. -/
def single (element : Reader TypeExpr) (cs : List Char) : Option (TypeExpr × List Char) := do
  let (name, rest) ← typeName cs
  match arguments element rest with
  | some (args, rest) => return (.applied name args, rest)
  | none => return (.named name, rest)

/-- A union behind its opening parenthesis. -/
def unionRest (element : Reader TypeExpr) (cs : List Char) : Option (TypeExpr × List Char) := do
  let (members, rest) ← elements element orWord? cs
  return (.union members, ← mark? ')' rest)

/-- A union or a single type. -/
def base (element : Reader TypeExpr) : Reader TypeExpr
  | '(' :: rest => unionRest element rest
  | cs => single element cs

/-- A type that nests at most `depth` deep. -/
def typeAt : (depth : Nat) → Reader TypeExpr
  | 0, _ => none
  | depth + 1, cs => do
      let (ty, rest) ← base (typeAt depth) (skipSpaces cs)
      match mark? '?' rest with
      | some rest => return (.nullable ty, rest)
      | none => return (ty, rest)

/-- Read a text that holds one type and blanks. -/
def TypeExpr.read? (text : String) : Option TypeExpr := do
  let cs := text.toList
  let (ty, rest) ← typeAt (cs.length + 1) cs
  if (skipSpaces rest).isEmpty then return ty else none

end IdlModel.Syntax
