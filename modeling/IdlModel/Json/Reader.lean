import IdlModel.Json.Basic
import IdlModel.Text.Letter

/-!
# Reading JSON

`Json.read?` reads one value and nothing after it but blanks.  It holds to the
grammar of JSON, with these bounds.

* Arrays and objects nest at most `depthLimit` deep.
* A number that rounds to no finite double is refused.
* An escape of half a surrogate pair is refused.

A document can be read with `readDocument?`, which keeps only some members of
the outermost object.  The members that are not kept are checked for the
grammar alone, without these three bounds.

Nesting is bounded, so the recursion is on the depth that is left.
-/

namespace IdlModel.Json

open Text

/-- How deep arrays and objects may nest. -/
def depthLimit : Nat := 127

/-- A reader returns a value and the text behind it. -/
abbrev Reader (α : Type) := List Char → Option (α × List Char)

/-- A blank of JSON. -/
def isJsonBlank (c : Char) : Bool := c == ' ' || c == '\n' || c == '\t' || c == '\r'

/-- The text without the blanks at its start. -/
def skipBlanks (cs : List Char) : List Char := cs.dropWhile isJsonBlank

/-! ## Strings -/

/-- The value of four hexadecimal digits. -/
def hexFour? (a b c d : Char) : Option Nat := hexNumber? [a, b, c, d]

/-- The character of a one-letter escape. -/
def shortEscape? : Char → Option Char
  | '"' => some '"'
  | '\\' => some '\\'
  | '/' => some '/'
  | 'b' => some (Char.ofNat 8)
  | 'f' => some (Char.ofNat 12)
  | 'n' => some '\n'
  | 'r' => some '\r'
  | 't' => some '\t'
  | _ => none

/-- Whether a code is the first half of a surrogate pair. -/
def isHighHalf (n : Nat) : Bool := 0xD800 ≤ n && n ≤ 0xDBFF

/-- Whether a code is the second half of a surrogate pair. -/
def isLowHalf (n : Nat) : Bool := 0xDC00 ≤ n && n ≤ 0xDFFF

/-- The rest of a string behind its opening quote.  If `strict` is false, halves
of surrogate pairs are let pass. -/
def stringRest (strict : Bool) : Reader (List Char)
  | [] => none
  | '"' :: rest => some ([], rest)
  | '\\' :: 'u' :: a :: b :: c :: d :: '\\' :: 'u' :: e :: f :: g :: h :: rest => do
      let n ← hexFour? a b c d
      if strict && isHighHalf n then
        let m ← hexFour? e f g h
        if isLowHalf m then
          let (cs, rest) ← stringRest strict rest
          return (Char.ofNat (0x10000 + (n - 0xD800) * 0x400 + (m - 0xDC00)) :: cs, rest)
        else none
      else if strict && isLowHalf n then none
      else
        let (cs, rest) ← stringRest strict ('\\' :: 'u' :: e :: f :: g :: h :: rest)
        return (Char.ofNat n :: cs, rest)
  | '\\' :: 'u' :: a :: b :: c :: d :: rest => do
      let n ← hexFour? a b c d
      if strict && (isHighHalf n || isLowHalf n) then none
      else
        let (cs, rest) ← stringRest strict rest
        return (Char.ofNat n :: cs, rest)
  | '\\' :: c :: rest => do
      let c ← shortEscape? c
      let (cs, rest) ← stringRest strict rest
      return (c :: cs, rest)
  | c :: rest =>
      if c = '\\' || c.toNat < 0x20 then none
      else do
        let (cs, rest) ← stringRest strict rest
        return (c :: cs, rest)

/-- A string. -/
def stringValue (strict : Bool) : Reader String
  | '"' :: rest => do
      let (cs, rest) ← stringRest strict rest
      return (String.ofList cs, rest)
  | _ => none

/-! ## Numbers -/

/-- The value of a list of decimal digits. -/
def digitsValue (cs : List Char) : Nat := cs.foldl (fun n c => 10 * n + (c.toNat - '0'.toNat)) 0

/-- Digits at the start of a text, at least one. -/
def someDigits : Reader (List Char)
  | cs =>
      match cs.span isAsciiDigit with
      | ([], _) => none
      | (digits, rest) => some (digits, rest)

/-- The digits before the point: `0`, or digits that start with no zero. -/
def integerDigits : Reader (List Char)
  | '0' :: rest =>
      match rest with
      | c :: _ => if isAsciiDigit c then none else some (['0'], rest)
      | [] => some (['0'], rest)
  | cs => someDigits cs

/-- The digits behind the point, if there is one. -/
def fractionDigits : Reader (List Char)
  | '.' :: rest => someDigits rest
  | cs => some ([], cs)

/-- The exponent, if there is one. -/
def exponent : Reader (Option Int)
  | c :: rest =>
      if c = 'e' ∨ c = 'E' then
        match rest with
        | '-' :: rest => (someDigits rest).map fun (ds, rest) => (some (-(digitsValue ds)), rest)
        | '+' :: rest => (someDigits rest).map fun (ds, rest) => (some (digitsValue ds), rest)
        | rest => (someDigits rest).map fun (ds, rest) => (some (digitsValue ds), rest)
      else some (none, c :: rest)
  | [] => some (none, [])

/-- Whether `digits` times a power of ten rounds to a finite double.  The number
of digits decides far away from the bound. -/
def isFiniteDouble (digits : List Char) (power : Int) : Bool :=
  let significant := digits.dropWhile (· == '0')
  let size : Int := significant.length + power
  if significant.isEmpty || size < 300 then true
  else if size > 320 then false
  else
    let bound := Nat.pow 2 1024 - Nat.pow 2 970
    if power < 0 then digitsValue significant < bound * Nat.pow 10 (-power).toNat
    else digitsValue significant * Nat.pow 10 power.toNat < bound

/-- A number. -/
def number (strict : Bool) (cs : List Char) : Option (Json × List Char) := do
  let negative := cs.head? == some '-'
  let (whole, rest) ← integerDigits (if negative then cs.tail else cs)
  let (fraction, rest) ← fractionDigits rest
  let (power, rest) ← exponent rest
  let isNatural := !negative && fraction.isEmpty && power.isNone && digitsValue whole < natLimit
  if isNatural then return (.nat (digitsValue whole), rest)
  else if strict && !isFiniteDouble (whole ++ fraction) (power.getD 0 - fraction.length) then none
  else return (.numeral (String.ofList (cs.take (cs.length - rest.length))), rest)

/-! ## Arrays and objects -/

/-- Items separated by commas and ended by `close`, behind the opening bracket.
There is at least one.  `fuel` bounds their number. -/
def itemsThen {α : Type} (item : Reader α) (close : Char) : (fuel : Nat) → Reader (List α)
  | 0, _ => none
  | fuel + 1, cs => do
      let (x, rest) ← item cs
      match skipBlanks rest with
      | c :: rest =>
          if c = close then return ([x], rest)
          else if c = ',' then
            let (xs, rest) ← itemsThen item close fuel rest
            return (x :: xs, rest)
          else none
      | [] => none

/-- The items up to `close`, perhaps none. -/
def itemsUpTo {α : Type} (item : Reader α) (close : Char) (cs : List Char) :
    Option (List α × List Char) :=
  match skipBlanks cs with
  | c :: rest => if c = close then some ([], rest) else itemsThen item close (cs.length + 1) cs
  | [] => none

/-- A key, a colon and a value that the key chooses the reader of. -/
def member (strict : Bool) (value : String → Reader Json) (cs : List Char) :
    Option ((String × Json) × List Char) := do
  let (key, rest) ← stringValue strict (skipBlanks cs)
  match skipBlanks rest with
  | ':' :: rest =>
      let (v, rest) ← value key rest
      return ((key, v), rest)
  | _ => none

/-- The text behind a word. -/
def afterWord? : List Char → List Char → Option (List Char)
  | [], cs => some cs
  | w :: ws, c :: cs => if w = c then afterWord? ws cs else none
  | _ :: _, [] => none

/-- A value.  `depth` is the number of arrays and objects that may still be
opened. -/
def value (strict : Bool) : (depth : Nat) → Reader Json
  | depth, cs =>
      match skipBlanks cs with
      | 'n' :: rest => (afterWord? ['u', 'l', 'l'] rest).map fun rest => (.null, rest)
      | 't' :: rest => (afterWord? ['r', 'u', 'e'] rest).map fun rest => (.bool true, rest)
      | 'f' :: rest => (afterWord? ['a', 'l', 's', 'e'] rest).map fun rest => (.bool false, rest)
      | '"' :: rest => do
          let (s, rest) ← stringValue strict ('"' :: rest)
          return (.str s, rest)
      | '[' :: rest =>
          match depth with
          | 0 => none
          | depth + 1 => do
              let (items, rest) ← itemsUpTo (value strict depth) ']' rest
              return (.arr items, rest)
      | '\x7b' :: rest =>
          match depth with
          | 0 => none
          | depth + 1 => do
              let (members, rest) ←
                itemsUpTo (member strict fun _ => value strict depth) '\x7d' rest
              return (.obj members, rest)
      | cs => number strict cs

/-- The value of a text that holds nothing else. -/
def whole? (reader : Reader Json) (text : String) : Option Json := do
  let (j, rest) ← reader text.toList
  if (skipBlanks rest).isEmpty then return j else none

/-- Read a JSON text. -/
def read? (text : String) : Option Json := whole? (value true depthLimit) text

/-- A value that is only checked for the grammar. -/
def skipped (cs : List Char) : Option (Json × List Char) :=
  (value false cs.length cs).map fun (_, rest) => (.null, rest)

/-- Read a JSON text that is an object, and keep only the members whose key
satisfies `keep`.  A text that is no object is read as it is. -/
def readDocument? (keep : String → Bool) (text : String) : Option Json :=
  match skipBlanks text.toList with
  | '\x7b' :: _ => whole? (fun cs =>
      match skipBlanks cs with
      | _ :: rest => do
          let (members, rest) ← itemsUpTo
            (member true fun key =>
              if keep key then value true (depthLimit - 1) else skipped) '\x7d' rest
          return (.obj (members.filter fun (key, _) => keep key), rest)
      | [] => none) text
  | _ => read? text

end IdlModel.Json
