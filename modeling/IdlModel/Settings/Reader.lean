import IdlModel.Settings.Basic
import IdlModel.Text.Letter

/-!
# Reading settings

A settings file is a TOML document.  The settings are flat, so of TOML only
lines `key = value` can occur, where the value is a string, an integer or a
truth value.  A table, an array, a date or a float fits no setting and is
refused at once, and so is a dotted key.

* A key is bare or quoted.  No key occurs twice.
* A string is basic (`"`), with escapes, or literal (`'`), without.  Each has a
  form on several lines, with three quotes.  That form drops a line break at its
  start, and a backslash at the end of a line drops the break and the blanks
  behind it.
* An integer is decimal with an optional sign, or hexadecimal, octal or binary.
  An underscore may stand between two digits.  Integers have 64 bits and a sign.
* A comment starts with `#` and ends with the line.

A line ends with a line feed or a carriage return and a line feed.
-/

namespace IdlModel.Settings

open Text Json

/-- A reader returns a value and the text behind it. -/
abbrev TomlReader (α : Type) := List Char → Option (α × List Char)

/-- A space or a tab. -/
def isTomlSpace (c : Char) : Bool := c == ' ' || c == '\t'

/-- The text without the blanks at its start. -/
def skipTomlSpaces (cs : List Char) : List Char := cs.dropWhile isTomlSpace

/-- A character that a comment or a string may hold as it is. -/
def isPlain (c : Char) : Bool := c == '\t' || (0x20 ≤ c.toNat && c.toNat != 0x7F)

/-- The text behind a line break. -/
def lineBreak? : List Char → Option (List Char)
  | '\n' :: rest => some rest
  | '\r' :: '\n' :: rest => some rest
  | _ => none

/-! ## Strings -/

/-- The character with the code of some hexadecimal digits. -/
def codeChar? (digits : List Char) : Option Char := do
  let n ← hexNumber? digits
  if n.isValidChar then return Char.ofNat n else none

/-- The character of an escape and the text behind it.  The backslash is
before. -/
def tomlEscape? : TomlReader Char
  | 'b' :: rest => some (Char.ofNat 8, rest)
  | 't' :: rest => some ('\t', rest)
  | 'n' :: rest => some ('\n', rest)
  | 'f' :: rest => some (Char.ofNat 12, rest)
  | 'r' :: rest => some ('\r', rest)
  | '"' :: rest => some ('"', rest)
  | '\\' :: rest => some ('\\', rest)
  | 'u' :: a :: b :: c :: d :: rest => (codeChar? [a, b, c, d]).map (·, rest)
  | 'U' :: a :: b :: c :: d :: e :: f :: g :: h :: rest =>
      (codeChar? [a, b, c, d, e, f, g, h]).map (·, rest)
  | _ => none

/-- A string of one line behind its opening quote.  `fuel` bounds its length. -/
def lineString (quote : Char) : (fuel : Nat) → TomlReader (List Char)
  | 0, _ => none
  | _ + 1, [] => none
  | fuel + 1, c :: rest =>
      if c = quote then some ([], rest)
      else if c = '\\' ∧ quote = '"' then do
        let (e, rest) ← tomlEscape? rest
        let (cs, rest) ← lineString quote fuel rest
        return (e :: cs, rest)
      else if isPlain c then do
        let (cs, rest) ← lineString quote fuel rest
        return (c :: cs, rest)
      else none

/-- The text behind blanks and line breaks. -/
def skipBreaks : (fuel : Nat) → List Char → List Char
  | 0, cs => cs
  | fuel + 1, cs =>
      match lineBreak? (skipTomlSpaces cs) with
      | some rest => skipBreaks fuel rest
      | none => skipTomlSpaces cs

/-- A string of several lines behind its opening quotes.  `fuel` bounds its
length.  Up to two quotes may stand in front of the three that close it. -/
def blockString (quote : Char) : (fuel : Nat) → TomlReader (List Char)
  | 0, _ => none
  | fuel + 1, cs =>
      let run := (cs.takeWhile (· == quote)).length
      if 3 ≤ run then some (List.replicate (min run 5 - 3) quote, cs.drop (min run 5))
      else
        match cs with
        | [] => none
        | c :: rest =>
            if c = '\\' ∧ quote = '"' then
              match lineBreak? (skipTomlSpaces rest) with
              | some rest => blockString quote fuel (skipBreaks rest.length rest)
              | none => do
                  let (e, rest) ← tomlEscape? rest
                  let (cs, rest) ← blockString quote fuel rest
                  return (e :: cs, rest)
            else
              match lineBreak? (c :: rest) with
              | some rest => do
                  let (cs, rest) ← blockString quote fuel rest
                  return ('\n' :: cs, rest)
              | none =>
                  if isPlain c then do
                    let (cs, rest) ← blockString quote fuel rest
                    return (c :: cs, rest)
                  else none

/-- A string in one of its four forms. -/
def tomlString (multiline : Bool) : TomlReader String
  | q :: cs =>
      let text (r : Option (List Char × List Char)) : Option (String × List Char) :=
        r.map fun (cs, rest) => (String.ofList cs, rest)
      if q = '"' ∨ q = '\'' then
        match cs with
        | r :: s :: rest =>
            if r = q ∧ s = q then
              if multiline then
                let body := (lineBreak? rest).getD rest
                text (blockString q (body.length + 1) body)
              else none
            else text (lineString q (cs.length + 1) cs)
        | _ => text (lineString q (cs.length + 1) cs)
      else none
  | [] => none

/-! ## Integers -/

/-- The value of a digit in a base. -/
def digitIn? (base : Nat) (c : Char) : Option Nat := do
  let d ← hexDigit? c
  if d < base then return d else none

/-- Digits in a base, with single underscores between them.  `value` is the
value of the digits before, of which there is at least one. -/
def moreDigits (base : Nat) : (value : Nat) → List Char → Nat × List Char
  | value, [] => (value, [])
  | value, '_' :: c :: cs =>
      match digitIn? base c with
      | some d => moreDigits base (base * value + d) cs
      | none => (value, '_' :: c :: cs)
  | value, c :: cs =>
      match digitIn? base c with
      | some d => moreDigits base (base * value + d) cs
      | none => (value, c :: cs)

/-- Digits in a base, at least one. -/
def digits (base : Nat) : TomlReader Nat
  | c :: cs => do return moreDigits base (← digitIn? base c) cs
  | [] => none

/-- A decimal number without a zero at its start. -/
def decimal : TomlReader Nat
  | '0' :: cs => some (0, cs)
  | cs => digits 10 cs

/-- A natural number.  A minus sign is allowed in front of zero only. -/
def natural (cs : List Char) : Option (Nat × List Char) := do
  let (n, rest) ←
    match cs with
    | '+' :: cs => decimal cs
    | '-' :: cs => do
        let (n, rest) ← decimal cs
        if n = 0 then return (n, rest) else none
    | '0' :: 'x' :: cs => digits 16 cs
    | '0' :: 'o' :: cs => digits 8 cs
    | '0' :: 'b' :: cs => digits 2 cs
    | cs => decimal cs
  if n < Nat.pow 2 63 then return (n, rest) else none

/-! ## Lines -/

/-- A value, as JSON. -/
def tomlValue : TomlReader Json
  | 't' :: 'r' :: 'u' :: 'e' :: rest => some (.bool true, rest)
  | 'f' :: 'a' :: 'l' :: 's' :: 'e' :: rest => some (.bool false, rest)
  | c :: rest =>
      if c = '"' ∨ c = '\'' then (tomlString true (c :: rest)).map fun (s, rest) => (.str s, rest)
      else (natural (c :: rest)).map fun (n, rest) => (.nat n, rest)
  | [] => none

/-- A character of a bare key. -/
def isBareKey (c : Char) : Bool := isAsciiAlphanumeric c || c == '_' || c == '-'

/-- A key. -/
def tomlKey (cs : List Char) : Option (String × List Char) :=
  match cs.span isBareKey with
  | ([], _) => tomlString false cs
  | (key, rest) => some (String.ofList key, rest)

/-- The text behind the end of a line, which may hold blanks and a comment.  The
end of the text ends a line too. -/
def lineEnd? (cs : List Char) : Option (List Char) :=
  let rest :=
    match skipTomlSpaces cs with
    | '#' :: comment => comment.dropWhile isPlain
    | rest => rest
  if rest.isEmpty then some [] else lineBreak? rest

/-- The line of a setting without its end. -/
def assignment (cs : List Char) : Option ((String × Json) × List Char) := do
  let (key, rest) ← tomlKey cs
  match skipTomlSpaces rest with
  | '=' :: rest =>
      let (value, rest) ← tomlValue (skipTomlSpaces rest)
      return ((key, value), rest)
  | _ => none

/-- The settings on the lines of a text.  `fuel` bounds the number of lines. -/
def assignments : (fuel : Nat) → List Char → Option Record
  | 0, _ => none
  | fuel + 1, cs =>
      if cs.isEmpty then some []
      else
        match lineEnd? cs with
        | some rest => assignments fuel rest
        | none => do
            let (setting, rest) ← assignment (skipTomlSpaces cs)
            return setting :: (← assignments fuel (← lineEnd? rest))

/-- Read the settings from the text of a file. -/
def read? (text : String) : Option Settings :=
  let cs :=
    match text.toList with
    | '\ufeff' :: cs => cs
    | cs => cs
  (assignments (cs.length + 1) cs).bind ofRecord?

end IdlModel.Settings
