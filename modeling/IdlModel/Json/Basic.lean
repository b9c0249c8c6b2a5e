/-!
# JSON values

A value of JSON as it stands in a text: an object is the list of its members,
so the order of the keys and repeated keys are kept.  Natural numbers below
`2^64` are values of their own.  Any other number is kept as it is written, for
nothing in this library reads it.

The second half reads *records*: objects with fixed keys.  Members with other
keys are ignored.  A fixed key that occurs twice is refused.
-/

namespace IdlModel

/-- A JSON value. -/
inductive Json where
  | null
  | bool (value : Bool)
  /-- A natural number. -/
  | nat (value : Nat)
  /-- Any other number, as it is written. -/
  | numeral (text : String)
  | str (value : String)
  | arr (items : List Json)
  /-- The members in order. -/
  | obj (members : List (String × Json))
deriving Inhabited, Repr

namespace Json

/-- The first number that is no natural number of 64 bits. -/
def natLimit : Nat := UInt64.size

/-! ## Reading values -/

/-- A truth value. -/
def bool? : Json → Option Bool
  | .bool b => some b
  | _ => none

/-- A text. -/
def str? : Json → Option String
  | .str s => some s
  | _ => none

/-- A natural number of 64 bits. -/
def nat? : Json → Option Nat
  | .nat n => if n < natLimit then some n else none
  | _ => none

/-- The same, as a word. -/
def word? (j : Json) : Option UInt64 := j.nat?.map UInt64.ofNat

/-- The items of an array, each read by `item?`. -/
def list? {α : Type} (item? : Json → Option α) : Json → Option (List α)
  | .arr items => items.mapM item?
  | _ => none

/-- A value that may be `null`. -/
def nullable? {α : Type} (value? : Json → Option α) : Json → Option (Option α)
  | .null => some none
  | j => (value? j).map some

/-! ## Reading records -/

/-- The members of a record. -/
abbrev Record := List (String × Json)

/-- The members of an object. -/
def members? : Json → Option Record
  | .obj ms => some ms
  | _ => none

/-- The members of a record.  An array gives the first fields of the record in
their order. -/
def record? (fields : List String) : Json → Option Record
  | .obj ms => some ms
  | .arr items => if items.length ≤ fields.length then some (fields.zip items) else none
  | _ => none

/-- The value under a key.  The outer `none` stands for a repeated key. -/
def Record.single (ms : Record) (key : String) : Option (Option Json) :=
  match ms.filter (·.1 == key) with
  | [] => some none
  | [(_, value)] => some (some value)
  | _ => none

/-- A field that has to be there. -/
def Record.required {α : Type} (ms : Record) (key : String) (value? : Json → Option α) :
    Option α :=
  match ms.single key with
  | some (some value) => value? value
  | _ => none

/-- A field that may be left out. -/
def Record.withDefault {α : Type} (ms : Record) (key : String) (default : α)
    (value? : Json → Option α) : Option α :=
  match ms.single key with
  | some (some value) => value? value
  | some none => some default
  | none => none

/-- A field that may be left out or `null`. -/
def Record.optional {α : Type} (ms : Record) (key : String) (value? : Json → Option α) :
    Option (Option α) :=
  ms.withDefault key none (nullable? value?)

/-- A record that says under a key what it is.  In an array this comes first.
The results are the value under the key and the record. -/
def tagged? (key : String) : Json → Option (Json × Json)
  | .obj ms => (Record.required ms key some).map fun tag => (tag, .obj ms)
  | .arr (tag :: items) => some (tag, .arr items)
  | _ => none

/-! ## Building values -/

/-- A text or `null`. -/
def ofText? : Option String → Json
  | some s => .str s
  | none => .null

/-- An array. -/
def ofList {α : Type} (item : α → Json) (items : List α) : Json := .arr (items.map item)

end Json

end IdlModel
