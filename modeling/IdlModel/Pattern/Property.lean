import IdlModel.Pattern.Fault
import IdlModel.Text.Letter
import IdlModel.Text.WritingSystem

/-!
# Properties of characters

What a pattern can ask for by name, as in `\p{Lu}` and `\p{Script=Greek}`.
A name alone is looked for in this order.

* a property that a character has or has not, such as `Alphabetic`
* a general category or a union of some, such as `L`, and `Any`, `ASCII` and
  `Assigned`
* a writing system

Names are compared without case, blanks, `_`, `-` and a leading `is`.
-/

namespace IdlModel.Pattern

open Text (Category WritingSystem)

/-- A property of characters. -/
inductive Property where
  /-- Every character. -/
  | any
  | ascii
  /-- Letters in the widest sense. -/
  | alphabetic
  | lowercase
  | uppercase
  | cased
  | blank
  /-- Attached to the character before. -/
  | extending
  | asciiHexDigit
  /-- Hexadecimal digits, those of full width among them. -/
  | hexDigit
  /-- One of some general categories. -/
  | category (options : List Category)
  /-- Of a writing system. -/
  | writingSystem (system : WritingSystem)
deriving Repr

namespace Property

/-- Whether a character has the property. -/
def holds : Property → Char → Bool
  | any, _ => true
  | ascii, c => Text.isAscii c
  | alphabetic, c => Text.isAlphabetic c
  | lowercase, c => Text.isLowercase c
  | uppercase, c => Text.isUppercase c
  | cased, c => Text.isLowercase c || Text.isUppercase c || Category.of c.toNat == .lt
  | blank, c => Text.isBlank c
  | extending, c => Text.isExtending c
  | asciiHexDigit, c => (Text.hexDigit? c).isSome
  | hexDigit, c =>
      (Text.hexDigit? c).isSome ||
        (0xFF00 ≤ c.toNat && c.toNat < 0xFF60 && (Text.hexDigit? (Char.ofNat (c.toNat - 0xFEE0))).isSome)
  | category options, c => options.contains (Category.of c.toNat)
  | writingSystem system, c => WritingSystem.of c.toNat == system

/-! ## Names -/

/-- A name without what does not count in a comparison.  Characters outside
ASCII do not count either. -/
def plainName (name : String) : String :=
  let cs := name.toList
  let tail := match cs with
    | i :: s :: rest => if i.toLower = 'i' ∧ s.toLower = 's' then rest else cs
    | _ => cs
  let plain := (tail.filter fun c =>
    Text.isAscii c && c != ' ' && c != '_' && c != '-').map Char.toLower
  if tail.length < cs.length ∧ plain = ['c'] then "isc" else String.ofList plain

/-- The properties that a character has or has not. -/
def plain : List (String × Property) :=
  [("alphabetic", alphabetic), ("alpha", alphabetic), ("lowercase", lowercase), ("lower", lowercase),
   ("uppercase", uppercase), ("upper", uppercase), ("cased", cased), ("whitespace", blank),
   ("wspace", blank), ("space", blank), ("graphemeextend", extending), ("grext", extending),
   ("asciihexdigit", asciiHexDigit), ("ahex", asciiHexDigit), ("hexdigit", hexDigit),
   ("hex", hexDigit)]

/-- The long names of the single categories and their third names. -/
def categoryNames : List (String × Category) :=
  [("control", .cc), ("cntrl", .cc), ("format", .cf), ("unassigned", .cn), ("privateuse", .co),
   ("lowercaseletter", .ll), ("modifierletter", .lm), ("otherletter", .lo),
   ("titlecaseletter", .lt), ("uppercaseletter", .lu), ("spacingmark", .mc),
   ("enclosingmark", .me), ("nonspacingmark", .mn), ("decimalnumber", .nd), ("digit", .nd),
   ("letternumber", .nl), ("othernumber", .no), ("connectorpunctuation", .pc),
   ("dashpunctuation", .pd), ("closepunctuation", .pe), ("finalpunctuation", .pf),
   ("initialpunctuation", .pi), ("otherpunctuation", .po), ("openpunctuation", .ps),
   ("currencysymbol", .sc), ("modifiersymbol", .sk), ("mathsymbol", .sm), ("othersymbol", .so),
   ("lineseparator", .zl), ("paragraphseparator", .zp), ("spaceseparator", .zs)]

/-- The unions of categories. -/
def categoryUnions : List (String × List Category) :=
  [("l", [.lu, .ll, .lt, .lm, .lo]), ("letter", [.lu, .ll, .lt, .lm, .lo]),
   ("lc", [.lu, .ll, .lt]), ("casedletter", [.lu, .ll, .lt]),
   ("m", [.mn, .mc, .me]), ("mark", [.mn, .mc, .me]), ("combiningmark", [.mn, .mc, .me]),
   ("n", [.nd, .nl, .no]), ("number", [.nd, .nl, .no]),
   ("p", [.pc, .pd, .ps, .pe, .pi, .pf, .po]), ("punct", [.pc, .pd, .ps, .pe, .pi, .pf, .po]),
   ("punctuation", [.pc, .pd, .ps, .pe, .pi, .pf, .po]),
   ("s", [.sm, .sc, .sk, .so]), ("symbol", [.sm, .sc, .sk, .so]),
   ("z", [.zs, .zl, .zp]), ("separator", [.zs, .zl, .zp]),
   ("c", [.cc, .cf, .cs, .co, .cn]), ("other", [.cc, .cf, .cs, .co, .cn])]

/-- The categories of a plain name.  The surrogates are none of them, as they
are no characters. -/
def categories? (name : String) : Option (List Category) :=
  let short := (Category.names.find? fun (short, _) => plainName short == name).map (·.2)
  match short.filter (· != .cs), categoryNames.lookup name with
  | some one, _ | none, some one => some [one]
  | none, none => categoryUnions.lookup name

/-- Everything but the unassigned code points. -/
def assigned : Property := category ((Category.names.map (·.2)).filter (· != .cn))

/-- The property of a plain name of the property General_Category. -/
def ofCategoryName? (name : String) : Option Property :=
  if name = "any" then some any
  else if name = "ascii" then some ascii
  else if name = "assigned" then some assigned
  else (categories? name).map category

/-- The writing system of a plain name or a plain code. -/
def systemOf? (name : String) : Option WritingSystem := do
  let (_, found) ← WritingSystem.names.find? fun (code, long) =>
    plainName code == name || plainName long == name
  let (code, _) ← WritingSystem.names.find? fun (_, long) => long == found
  return ⟨code⟩

/-- Whether a plain name is known although no character is asked for by it. -/
def isEmptyName (name : String) : Bool :=
  ["cs", "surrogate", "zzzz", "unknown", "hrkt", "katakanaorhiragana"].contains name

/-- The property of a writing system's plain name. -/
def ofSystemName? (name : String) : Option Property :=
  if isEmptyName name then none else (systemOf? name).map writingSystem

/-- The property of a name alone. -/
def ofName (name : String) : Except FaultKind Property :=
  let name := plainName name
  match plain.lookup name, ofCategoryName? name, ofSystemName? name with
  | some p, _, _ | none, some p, _ | none, none, some p => .ok p
  | none, none, none => .error (if isEmptyName name then .unknownPropertyValue else .unknownProperty)

/-- The property of a name and a value. -/
def ofValue (name value : String) : Except FaultKind Property :=
  let found? : Except FaultKind (Option Property) :=
    if ["gc", "generalcategory"].contains (plainName name) then
      .ok (ofCategoryName? (plainName value))
    else if ["sc", "script"].contains (plainName name) then .ok (ofSystemName? (plainName value))
    else .error .unknownProperty
  match found? with
  | .ok (some p) => .ok p
  | .ok none => .error .unknownPropertyValue
  | .error kind => .error kind

end Property

end IdlModel.Pattern
