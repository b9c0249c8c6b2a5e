/-!
# Tables of code points

The character classes of the Unicode standard are kept as text and read once.
The entries of a table have blanks and line feeds between them.  Three shapes
occur.

* A *class* lists code points and ranges: `41-5A 61-7A AA`.
* A *partition* alternates the first code point of a run with the name of the
  run: `0 Cc 20 Zs 21 Po`.  A run ends where the next one starts.
* A *shift* alternates a range with the image of its first code point:
  `61-7A 41 101~12F 100`.  A range written with `~` takes every other code
  point.

Every number is hexadecimal.  An entry that cannot be read is left out, so the
readers are total.  Lookups walk a table from its start.
-/

namespace IdlModel.Text

/-! ## Reading -/

/-- The value of a hexadecimal digit, in either case. -/
def hexDigit? (c : Char) : Option Nat :=
  if '0' ≤ c ∧ c ≤ '9' then some (c.toNat - '0'.toNat)
  else if 'A' ≤ c ∧ c ≤ 'F' then some (c.toNat - 'A'.toNat + 10)
  else if 'a' ≤ c ∧ c ≤ 'f' then some (c.toNat - 'a'.toNat + 10)
  else none

/-- The value of a hexadecimal number.  The empty list and a character that is
no digit are refused. -/
def hexNumber? : List Char → Option Nat
  | [] => none
  | cs => cs.foldl (fun acc c => do return 16 * (← acc) + (← hexDigit? c)) (some 0)

/-- The pieces of a text between the separators `sep`. -/
def splitAt (sep : Char) : List Char → List (List Char)
  | [] => [[]]
  | c :: cs =>
      match splitAt sep cs with
      | [] => [[c]]
      | piece :: pieces => if c = sep then [] :: piece :: pieces else (c :: piece) :: pieces

/-- The entries of a table. -/
def entries (text : String) : List (List Char) :=
  ((splitAt '\n' text.toList).flatMap (splitAt ' ')).filter (!·.isEmpty)

/-- A run of code points in steps. -/
structure CodeRange where
  /-- The first code point. -/
  first : Nat
  /-- The last code point. -/
  last : Nat
  /-- The distance between two neighbours. -/
  step : Nat
deriving Repr

/-- A code point, `first-last`, or `first~last` for every other one. -/
def CodeRange.ofEntry? (entry : List Char) : Option CodeRange :=
  match splitAt '-' entry, splitAt '~' entry with
  | [lo, hi], _ => do return ⟨← hexNumber? lo, ← hexNumber? hi, 1⟩
  | _, [lo, hi] => do return ⟨← hexNumber? lo, ← hexNumber? hi, 2⟩
  | _, _ => do let n ← hexNumber? entry; return ⟨n, n, 1⟩

/-- Whether a code point is on the run. -/
def CodeRange.contains (r : CodeRange) (n : Nat) : Bool :=
  r.first ≤ n && n ≤ r.last && (n - r.first) % r.step == 0

/-! ## The three shapes -/

/-- A set of code points. -/
abbrev CodeClass := List CodeRange

/-- Read a class. -/
def CodeClass.ofText (text : String) : CodeClass := (entries text).filterMap CodeRange.ofEntry?

/-- Whether a code point is in the class. -/
def CodeClass.contains (cls : CodeClass) (n : Nat) : Bool := cls.any (·.contains n)

/-- The entries of a table two by two.  A last entry without a partner is left
out. -/
def entryPairs : List (List Char) → List (List Char × List Char)
  | a :: b :: rest => (a, b) :: entryPairs rest
  | _ => []

/-- Read a partition, with a reader for the names of its runs. -/
def partitionOfText {α : Type} (name? : String → Option α) (text : String) : List (Nat × α) :=
  (entryPairs (entries text)).filterMap fun (start, name) => do
    return (← hexNumber? start, ← name? (String.ofList name))

/-- The name of the run that holds `n`, or `default` before the first run. -/
def runAt {α : Type} (n : Nat) : (default : α) → List (Nat × α) → α
  | default, [] => default
  | default, (start, name) :: rest => if n < start then default else runAt n name rest

/-- Read a shift. -/
def shiftOfText (text : String) : List (CodeRange × Nat) :=
  (entryPairs (entries text)).filterMap fun (range, image) => do
    return (← CodeRange.ofEntry? range, ← hexNumber? image)

/-- The image of `n` under a shift, if `n` is on one of its ranges. -/
def shiftAt? (n : Nat) (table : List (CodeRange × Nat)) : Option Nat :=
  (table.find? (·.1.contains n)).map fun (range, image) => image + (n - range.first)

/-- Read lists of code points joined by `joint`, such as `53+53`. -/
def codeList (joint : Char) (entry : List Char) : List Nat :=
  (splitAt joint entry).filterMap hexNumber?

example : (CodeClass.ofText "41-5A AA").contains 0x42 = true := by decide
example : (CodeClass.ofText "101~12F").contains 0x102 = false := by decide
example : shiftAt? 0x62 (shiftOfText "61-7A 41") = some 0x42 := by decide
example : runAt 0x20 "x" (partitionOfText some "0 a 20 b 30 c") = "b" := by decide

end IdlModel.Text
