import IdlModel.Text.LetterCase
import IdlModel.Text.FilePath

/-!
# Derived names

The generated code does not use the names of the interface definitions as they
are written.

* A *display name* is exported: one leading underscore, which only escapes
  keywords, is dropped and the first character is in upper case.
* An *internal name* is hidden: the same with the first character in lower
  case.
* A *constant name* joins the words of a name written in capitals, so
  `ELEMENT_NODE` becomes `ElementNode`.  Any other name is only capitalised.
* A *package* is named for the file: its stem in lower case, with an underscore
  for every character that is no ASCII letter or digit.

Case maps are those of Unicode, so one character may become several.
-/

namespace IdlModel

open Text

/-- The name without the underscore that escapes a keyword. -/
def unescapedName : List Char → List Char
  | '_' :: cs => cs
  | cs => cs

/-- The characters of a name with the first one mapped. -/
def mapFirst (f : Char → List Char) : List Char → List Char
  | [] => []
  | c :: cs => f c ++ cs

/-- The exported name. -/
def displayName (idl : String) : String :=
  String.ofList (mapFirst upper (unescapedName idl.toList))

/-- The hidden name. -/
def internalName (idl : String) : String :=
  String.ofList (mapFirst lower (unescapedName idl.toList))

/-- Whether a name is written in capitals, digits and underscores. -/
def isScreaming (idl : String) : Bool :=
  idl.toList.all fun c => ('A' ≤ c && c ≤ 'Z') || isAsciiDigit c || c == '_'

/-- The name of a constant. -/
def constantName (idl : String) : String :=
  if isScreaming idl then
    let words := (splitAt '_' idl.toList).filter (!·.isEmpty)
    String.ofList (words.flatMap fun word => mapFirst upper (word.map Char.toLower))
  else displayName idl

/-- The package of the declarations in a file. -/
def packageOfFile (file : String) : String :=
  String.ofList <| ((fileStem? file).getD file).toList.map fun c =>
    if isAsciiAlphanumeric c then c.toLower else '_'

example : displayName "_interface" = "Interface" := by decide
example : internalName "HTMLElement" = "hTMLElement" := by decide
example : constantName "ELEMENT_NODE" = "ElementNode" := by decide
example : packageOfFile "Fetch-API.json" = "fetch_api" := by decide

end IdlModel
