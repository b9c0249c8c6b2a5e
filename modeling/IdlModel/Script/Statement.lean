import IdlModel.Report.Issue
import IdlModel.Script.Action
import IdlModel.Script.Lexer

/-!
# Statements

Lines of tokens become the actions of a script.

* `## TypeName` starts a block.  The statements below it belong to it.
* `# package` gives every block below it the package as its first action.
* `@on kind pattern statement` may also stand before the first block.

A line that makes no statement is reported and left out.  A problem of the
lexer is reported behind the reports of the lines before it, and then there is
no script at all.
-/

namespace IdlModel.Script

/-- A statement, or the issue with it. -/
abbrev Read (α : Type) := Except Issue α

/-- Refuse a line. -/
def refuse {α : Type} (problem : StatementProblem) : Read α := .error (.statement problem)

/-! ## Single lines -/

/-- The arguments of a command that wants `name = value`. -/
def readAssignment (command : String) : List Token → Read (String × String)
  | [.word left, .assign, right] =>
      match right.argument? with
      | some right => .ok (left, right)
      | none => refuse (.commandWantsAssignment command)
  | _ => refuse (.commandWantsAssignment command)

/-- The edit of a command other than `@on`. -/
def readCommand (command : String) (args : List Token) : Read Edit :=
  match command with
  | "changetype" => do
      let (member, type) ← readAssignment command args
      return .changeType member type
  | "patch" => if args.isEmpty then .ok .patch else refuse .patchTakesNothing
  | "replace" =>
      match args.map Token.argument? with
      | [some property, some old, some new] =>
          .ok (.replace (String.ofList (property.toList.dropWhile (· == '.'))) old new)
      | _ => refuse .replaceWantsThree
  | "event" => do
      let (name, type) ← readAssignment command args
      return .event name type
  | _ => .error (.unknownCommand command)

/-- The edit of a line. -/
def readEdit : List Token → Read Edit
  | [.property name, value] =>
      match value.argument? with
      | some value => .ok (.setProperty name value)
      | none => refuse (.missingValue name)
  | [.rename member, value] =>
      match value.argument? with
      | some newName => .ok (.rename member newName)
      | none => refuse (.missingNewName member)
  | .command name :: args => readCommand name args
  | first :: _ => refuse (.unexpectedToken first.shown)
  | [] => refuse .emptyStatement

/-- The first token of a statement behind `@on`, which is a bare argument
there. -/
def headOf (word : String) : Token :=
  match word.toList with
  | '@' :: rest => .command (String.ofList rest)
  | '.' :: rest => .property (String.ofList rest)
  | _ => .rename word

/-- The edit behind a pattern. -/
def readNested : List Token → Read Edit
  | .word word :: rest =>
      if word = "@on" then refuse .onNested
      else
        match headOf word, rest with
        | .command name, args => readEdit (.command name :: args)
        | head, [.assign, value] => readEdit [head, value]
        | head, _ => refuse (.wantsAssignment head.shown)
  | _ => refuse .onWantsStatement

/-- A pattern. -/
def readPattern (text : String) : Read Pattern :=
  match Pattern.ofText text with
  | .ok p => .ok p
  | .error fault => .error (.invalidPattern text fault)

/-- The selection behind `@on`. -/
def readSelection (args : List Token) : Read Selection :=
  match args.head?.bind Token.argument? with
  | none => refuse .onWantsKind
  | some kind =>
      match KindFilter.ofText? kind with
      | none => refuse (.onUnknownKind kind)
      | some filter =>
          match args.tail.head?.bind Token.argument? with
          | none => refuse .onWantsPattern
          | some text => do
              let pattern ← readPattern text
              return { filter, pattern, edit := ← readNested (args.drop 2) }

/-- What a line does. -/
def readEffect : List Token → Read Effect
  | .command "on" :: args => .select <$> readSelection args
  | tokens => .edit <$> readEdit tokens

/-! ## Scripts -/

/-- A script that is being read. -/
structure Draft where
  /-- The package of the blocks to come. -/
  package : Option String := none
  /-- The finished items. -/
  items : List Item := []
  /-- The block that is open. -/
  block : Option Block := none
  /-- The issues so far, with their lines. -/
  reports : List (Issue × Nat) := []

namespace Draft

/-- The items, with the open block as the last one. -/
def allItems (d : Draft) : List Item := d.items ++ (d.block.map Item.block).toList

/-- Report an issue. -/
def report (d : Draft) (issue : Issue) (line : Nat) : Draft :=
  { d with reports := d.reports ++ [(issue, line)] }

/-- Start a block. -/
def openBlock (d : Draft) (name : String) (line : Nat) : Draft :=
  let first := d.package.map fun package => ⟨.edit (.setProperty "package" package), line⟩
  { d with items := d.allItems, block := some { name, line, actions := first.toList } }

/-- Add an action to the open block.  Outside of blocks only a selection may
stand. -/
def push (d : Draft) (action : Action) : Draft :=
  match d.block, action.effect with
  | some block, _ => { d with block := some { block with actions := block.actions ++ [action] } }
  | none, .select s => { d with items := d.items ++ [.global s action.line] }
  | none, .edit e => d.report (.statement (.outsideBlock e.describe)) action.line

/-- Read a line. -/
def addLine (d : Draft) (line : Line) : Draft :=
  match line.tokens with
  | .fileHeader package :: _ => { d with package := some package }
  | .typeHeader name :: _ => d.openBlock name line.number
  | tokens =>
      match readEffect tokens with
      | .ok effect => d.push ⟨effect, line.number⟩
      | .error issue => d.report issue line.number

/-- Read lines. -/
def ofLines (lines : List Line) : Draft := lines.foldl addLine {}

end Draft

/-- Read a script.  The issues found come with their lines, in order.  There is
no script if the text cannot be cut into tokens. -/
def read (source : Source) : Option Script × List (Issue × Nat) :=
  let lexed := Lexed.ofText source.text
  let draft := Draft.ofLines lexed.lines
  match lexed.problem? with
  | none => (some { file := source.file, items := draft.allItems }, draft.reports)
  | some (problem, line) => (none, draft.reports ++ [(.lexical problem, line)])

end IdlModel.Script
