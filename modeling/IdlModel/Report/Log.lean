import IdlModel.Report.Issue

/-!
# The log

A *diagnostic* is an issue with the place it shows at, and perhaps notes and
suggestions.  The *log* keeps the diagnostics in the order in which they were
reported and never loses one.

A log is shown with one paragraph for each diagnostic and a line that counts the
errors and one that counts the warnings, each only if there are any.  Warnings
can be left out, and terminal colours can be used.
-/

namespace IdlModel

/-- A reported issue. -/
structure Diagnostic where
  /-- What is wrong. -/
  issue : Issue
  /-- Where it shows, if that is known. -/
  location : Option Location := none
  /-- What is good to know about it. -/
  notes : List String := []
  /-- What may help. -/
  help : List String := []
deriving Repr

namespace Diagnostic

/-- The severity of the issue. -/
def severity (d : Diagnostic) : Severity := d.issue.severity

/-- The code of the issue. -/
def code (d : Diagnostic) : String := d.issue.code

/-- Whether the issue is an error. -/
def isError (d : Diagnostic) : Bool := d.severity == .error

/-- Whether the issue is a warning. -/
def isWarning (d : Diagnostic) : Bool := d.severity == .warning

/-- A diagnostic is an error or a warning and not both. -/
theorem isWarning_eq_not_isError (d : Diagnostic) : d.isWarning = !d.isError := by
  unfold isWarning isError
  cases d.severity <;> rfl

end Diagnostic

/-- The diagnostics of a run, in the order of their reports. -/
structure Log where
  /-- The diagnostics. -/
  entries : Array Diagnostic := #[]
deriving Repr, Inhabited

namespace Log

/-- Add a diagnostic. -/
def add (l : Log) (d : Diagnostic) : Log := ⟨l.entries.push d⟩

/-- Report an issue at a place. -/
def report (l : Log) (issue : Issue) (at_ : Location) : Log :=
  l.add { issue, location := some at_ }

/-- The number of errors. -/
def errorCount (l : Log) : Nat := l.entries.countP (·.isError)

/-- The number of warnings. -/
def warningCount (l : Log) : Nat := l.entries.countP (·.isWarning)

/-- The number of diagnostics with a code. -/
def countCode (l : Log) (code : String) : Nat := l.entries.countP (·.code == code)

/-- A report is one more error if the issue is one. -/
@[simp] theorem errorCount_add (l : Log) (d : Diagnostic) :
    (l.add d).errorCount = l.errorCount + if d.isError then 1 else 0 := by
  simp [errorCount, add, Array.countP_push]

/-! ## Showing -/

/-- How a log is shown. -/
structure Display where
  /-- Whether terminal colours are used. -/
  colors : Bool := true
  /-- Whether warnings are shown. -/
  warnings : Bool := true
deriving Repr

/-- The colours of a terminal. -/
inductive Color where
  | red | yellow | blue | cyan | green | white
deriving DecidableEq, Repr

/-- The sequence that switches to a bold colour. -/
def Color.code : Color → String
  | .red => "\x1b[1;31m"
  | .yellow => "\x1b[1;33m"
  | .blue => "\x1b[1;34m"
  | .cyan => "\x1b[1;36m"
  | .green => "\x1b[1;32m"
  | .white => "\x1b[1;37m"

/-- The sequence that switches colours off. -/
def colorOff : String := "\x1b[0m"

/-- A text in a colour. -/
def Display.paint (display : Display) (color : Color) (text : String) : String :=
  if display.colors then color.code ++ text ++ colorOff else text

/-- The colour of a severity. -/
def severityColor : Severity → Color
  | .error => .red
  | .warning => .yellow

/-- A line below a diagnostic. -/
def remark (display : Display) (color : Color) (word text : String) : String :=
  " " ++ display.paint .blue "=" ++ " " ++ display.paint color word ++ ": " ++ text ++ "\n"

/-- The paragraph of a diagnostic. -/
def paragraph (display : Display) (d : Diagnostic) : String :=
  let head := display.paint (severityColor d.severity) (d.severity.text ++ "[" ++ d.code ++ "]")
  let place :=
    match d.location with
    | some l => "  " ++ display.paint .blue "-->" ++ " " ++ l.text ++ "\n"
    | none => ""
  head ++ ": " ++ display.paint .white d.issue.message ++ "\n" ++ place ++
    String.join (d.notes.map (remark display .cyan "note")) ++
    String.join (d.help.map (remark display .green "help"))

/-- An ending for a number of things. -/
def plural (n : Nat) : String := if n = 1 then "" else "s"

/-- The text of a log. -/
def render (l : Log) (display : Display) : String :=
  let shown := l.entries.toList.filter fun d => d.isError || display.warnings
  let errors :=
    if l.errorCount = 0 then ""
    else
      "error: aborting due to " ++ toString l.errorCount ++ " previous error" ++
        plural l.errorCount ++ "\n"
  let warnings :=
    if l.warningCount = 0 || !display.warnings then ""
    else
      "warning: " ++ toString l.warningCount ++ " warning" ++ plural l.warningCount ++ " emitted\n"
  String.join (shown.map (paragraph display)) ++ errors ++ warnings

end Log

end IdlModel
