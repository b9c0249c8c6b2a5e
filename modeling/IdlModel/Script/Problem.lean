/-!
# What can be wrong with a script

A line of a script fails on one of two levels.  A *lexical problem* means that
the line cannot be cut into tokens, and nothing behind it is read.  A
*statement problem* means that the tokens of the line make no statement, and
only this line is lost.

Each problem is a cause.  `message` is the only place with its wording.
-/

namespace IdlModel.Script

/-- What the lexer was looking for. -/
inductive Wanted where
  | propertyName | memberName | commandName | assign | value | argument
deriving DecidableEq, Repr

/-- The name of what was wanted. -/
def Wanted.text : Wanted → String
  | .propertyName => "a property name"
  | .memberName => "a member name"
  | .commandName => "a command name"
  | .assign => "`=`"
  | .value => "a value"
  | .argument => "an argument"

/-- Why a line cannot be cut into tokens. -/
inductive LexProblem where
  /-- The line ends too early. -/
  | unterminatedLine (wanted : Wanted)
  /-- Something else stands there. -/
  | missing (wanted : Wanted)
  /-- A quoted string does not end on its line. -/
  | unterminatedString
  /-- A header is only a marker. -/
  | unnamedHeader (marker : String)
  /-- No line starts with this character. -/
  | unexpectedCharacter (c : Char)
  /-- A carriage return that ends no line. -/
  | carriageReturn
  /-- Text behind a finished statement. -/
  | unexpectedInput (text : String)
deriving DecidableEq, Repr

/-- The wording of a lexical problem. -/
def LexProblem.message : LexProblem → String
  | .unterminatedLine wanted => "unterminated line: expected " ++ wanted.text
  | .missing wanted => "expected " ++ wanted.text
  | .unterminatedString => "unterminated string"
  | .unnamedHeader marker => "`" ++ marker ++ "` without a name"
  | .unexpectedCharacter c => "unexpected character `" ++ c.toString ++ "`"
  | .carriageReturn => "unexpected carriage return"
  | .unexpectedInput text => "unexpected input `" ++ text ++ "`"

/-- Why the tokens of a line make no statement. -/
inductive StatementProblem where
  /-- A property is not followed by the text of a value. -/
  | missingValue (property : String)
  /-- A member is not followed by the text of a new name. -/
  | missingNewName (member : String)
  /-- No statement starts like this. -/
  | unexpectedToken (shown : String)
  /-- There are no tokens. -/
  | emptyStatement
  /-- A command wants `name = value`. -/
  | commandWantsAssignment (command : String)
  /-- `@on` has no kind. -/
  | onWantsKind
  /-- `@on` has a kind that is none. -/
  | onUnknownKind (word : String)
  /-- `@on` has no pattern. -/
  | onWantsPattern
  /-- `@on` has no statement behind the pattern. -/
  | onWantsStatement
  /-- `@on` stands behind an `@on`. -/
  | onNested
  /-- `@patch` has arguments. -/
  | patchTakesNothing
  /-- `@replace` has not three arguments. -/
  | replaceWantsThree
  /-- A property or a member behind `@on` is not followed by `= value`. -/
  | wantsAssignment (head : String)
  /-- Only `@on` may stand before the first type header. -/
  | outsideBlock (action : String)
  /-- A problem in the words of somebody else. -/
  | other (message : String)
deriving DecidableEq, Repr

/-- The wording of a statement problem. -/
def StatementProblem.message : StatementProblem → String
  | .missingValue property => "expected a value for `." ++ property ++ "`"
  | .missingNewName member => "expected a new name for `" ++ member ++ "`"
  | .unexpectedToken shown => "unexpected `" ++ shown ++ "`"
  | .emptyStatement => "empty statement"
  | .commandWantsAssignment command => "`@" ++ command ++ "` expects `name = value`"
  | .onWantsKind => "`@on` expects a kind"
  | .onUnknownKind word => "unknown kind `" ++ word ++ "` for `@on`"
  | .onWantsPattern => "`@on` expects a pattern"
  | .onWantsStatement => "`@on` expects a statement after the pattern"
  | .onNested => "`@on` cannot be nested"
  | .patchTakesNothing => "`@patch` takes no arguments"
  | .replaceWantsThree => "`@replace` expects `property from to`"
  | .wantsAssignment head => "expected `" ++ head ++ " = value`"
  | .outsideBlock action => "`" ++ action ++ "` statement outside of a type block"
  | .other message => message

end IdlModel.Script
