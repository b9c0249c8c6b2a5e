import IdlModel.Json.Basic
import IdlModel.Text.Quoted

/-!
# Writing JSON

Two layouts of a JSON value.  `compact` has no blank at all.  `pretty` puts
every item and every member on a line of its own, indented by two blanks for
each level, and writes `[]` and `{}` for what is empty.

In a string the quote, the backslash and the controls below U+0020 are escaped,
five of them by a letter and the rest by four hexadecimal digits.  All other
characters stand for themselves.
-/

namespace IdlModel.Json

open Text

/-- A control character by its code: `\u001f`. -/
def unicodeEscape (c : Char) : List Char :=
  let digits := hexText c.toNat
  '\\' :: 'u' :: (List.replicate (4 - digits.length) '0' ++ digits)

/-- What stands for a character in a string. -/
def stringChar (c : Char) : List Char :=
  if c = '"' then ['\\', '"']
  else if c = '\\' then ['\\', '\\']
  else if c = '\n' then ['\\', 'n']
  else if c = '\r' then ['\\', 'r']
  else if c = '\t' then ['\\', 't']
  else if c.toNat = 8 then ['\\', 'b']
  else if c.toNat = 12 then ['\\', 'f']
  else if c.toNat < 0x20 then unicodeEscape c
  else [c]

/-- A string. -/
def stringText (s : String) : String :=
  String.ofList ('"' :: s.toList.flatMap stringChar ++ ['"'])

/-- A value that has no parts. -/
def leafText : Json → String
  | .null => "null"
  | .bool true => "true"
  | .bool false => "false"
  | .nat n => toString n
  | .numeral text => text
  | .str s => stringText s
  | .arr _ => "[]"
  | .obj _ => "\x7b\x7d"

mutual

/-- The layout without blanks. -/
def compact : Json → String
  | .arr items => "[" ++ compactItems "" items ++ "]"
  | .obj members => "\x7b" ++ compactMembers "" members ++ "\x7d"
  | leaf => leafText leaf

/-- Items, `sep` before the first. -/
def compactItems (sep : String) : List Json → String
  | [] => ""
  | item :: items => sep ++ compact item ++ compactItems "," items

/-- Members, `sep` before the first. -/
def compactMembers (sep : String) : List (String × Json) → String
  | [] => ""
  | (key, value) :: members =>
      sep ++ stringText key ++ ":" ++ compact value ++ compactMembers "," members

end

/-- A line end and the blanks of a level. -/
def newLine (level : Nat) : String := "\n" ++ String.ofList (List.replicate (2 * level) ' ')

mutual

/-- The layout with one line for every part, at a level. -/
def prettyAt (level : Nat) : Json → String
  | .arr (item :: items) =>
      "[" ++ newLine (level + 1) ++ prettyAt (level + 1) item ++ prettyItems (level + 1) items ++
        newLine level ++ "]"
  | .obj ((key, value) :: members) =>
      "\x7b" ++ newLine (level + 1) ++ stringText key ++ ": " ++ prettyAt (level + 1) value ++
        prettyMembers (level + 1) members ++ newLine level ++ "\x7d"
  | leaf => leafText leaf

/-- The items after the first. -/
def prettyItems (level : Nat) : List Json → String
  | [] => ""
  | item :: items => "," ++ newLine level ++ prettyAt level item ++ prettyItems level items

/-- The members after the first. -/
def prettyMembers (level : Nat) : List (String × Json) → String
  | [] => ""
  | (key, value) :: members =>
      "," ++ newLine level ++ stringText key ++ ": " ++ prettyAt level value ++
        prettyMembers level members

end

/-- The layout with one line for every part. -/
def pretty (j : Json) : String := prettyAt 0 j

end IdlModel.Json
