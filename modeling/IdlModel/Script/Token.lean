import IdlModel.Text.Quoted

/-!
# Tokens of scripts

A script is made of lines, and a line of tokens.  The first token of a line
tells what the line is: a header, a statement about a property or a member, or
a command.
-/

namespace IdlModel.Script

/-- A token. -/
inductive Token where
  /-- `# package`: the package of the blocks that follow. -/
  | fileHeader (package : String)
  /-- `## TypeName`: the start of a block. -/
  | typeHeader (name : String)
  /-- `.name` at the start of a line. -/
  | property (name : String)
  /-- The name of a member at the start of a line. -/
  | rename (name : String)
  /-- `@name` at the start of a line. -/
  | command (name : String)
  /-- A bare argument of a command. -/
  | word (text : String)
  /-- `=` among the arguments of a command. -/
  | assign
  /-- Bare text behind `=`, up to the end of the line. -/
  | value (text : String)
  /-- A quoted string, without its quotes and escapes. -/
  | str (text : String)
  /-- The end of a line. -/
  | newline
  /-- The end of the script. -/
  | eof
deriving DecidableEq, Repr

namespace Token

/-- The name of the kind of a token. -/
def kind : Token → String
  | fileHeader _ => "file_header"
  | typeHeader _ => "type_header"
  | property _ => "property"
  | rename _ => "rename"
  | command _ => "command"
  | word _ => "word"
  | assign => "assign"
  | value _ => "value"
  | str _ => "str"
  | newline => "newline"
  | eof => "eof"

/-- The text that a token carries. -/
def text? : Token → Option String
  | fileHeader s | typeHeader s | property s | rename s | command s | word s | value s | str s =>
      some s
  | assign | newline | eof => none

/-- A token as messages show it. -/
def shown : Token → String
  | fileHeader s => "# " ++ s
  | typeHeader s => "## " ++ s
  | property s => "." ++ s
  | rename s | word s | value s => s
  | command s => "@" ++ s
  | assign => "="
  | str s => Text.quoted s
  | newline => "<newline>"
  | eof => "EOF"

/-- The text of a token that can be a value or an argument. -/
def argument? : Token → Option String
  | word s | value s | str s => some s
  | _ => none

end Token

/-- A token with the line it stands on.  Lines count from one. -/
structure LineToken where
  /-- The token. -/
  token : Token
  /-- The line. -/
  line : Nat
deriving DecidableEq, Repr

end IdlModel.Script
