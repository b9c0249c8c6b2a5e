import IdlModel.CommandLine.Options
import IdlModel.Compile
import IdlModel.Settings.Reader
import IdlModel.Syntax.DocumentJson
import IdlModel.Text.Quoted

/-!
# The program

What the program does with a request.  It reads and writes files through a
*host*, so that it runs in any monad.

The settings are read first, then the syntax trees, then the scripts.  The
first file that cannot be used ends the run.  The log is shown whether or not
the compilation succeeds.  The model goes to a file or to the output.
-/

namespace IdlModel.CommandLine

/-- What the program needs from the world around it. -/
structure Host (m : Type → Type) where
  /-- The text of a file, if it can be read. -/
  readText : String → m (Option String)
  /-- Write a file.  The result says whether it was written. -/
  writeText : String → String → m Bool
  /-- Whether colours can be shown. -/
  colors : Bool := false

/-- What the program leaves behind. -/
structure Outcome where
  /-- The exit code. -/
  code : Nat := 0
  /-- The output. -/
  output : String := ""
  /-- The messages. -/
  messages : String := ""
deriving Repr

/-- Why a file cannot be used. -/
inductive FileProblem where
  | unreadableConfig (path : String)
  | invalidConfig (path : String)
  | unreadableTree (path : String)
  | invalidTree (path : String)
  | unreadableScript (path : String)
  | unwritableOutput (path : String)
deriving DecidableEq, Repr

/-- The message of a problem with a file. -/
def FileProblem.message (problem : FileProblem) : String :=
  let about (text path : String) : String := "Error: " ++ text ++ ": " ++ Text.quotedPath path
  match problem with
  | .unreadableConfig path => about "Failed to read config file" path
  | .invalidConfig path => about "Invalid config file" path
  | .unreadableTree path => about "Failed to read syntax tree" path
  | .invalidTree path => about "Invalid syntax tree" path
  | .unreadableScript path => about "Failed to read transformation script" path
  | .unwritableOutput path => about "Failed to write output" path

/-- The program's name and version. -/
def versionText : String := "webidl_bind 0.1.0\n"

/-- How the program is used. -/
def helpText : String :=
  "Compiles WebIDL syntax trees into a linked type model for binding generators\n\n" ++
  "Usage: webidl_bind [OPTIONS] <INPUTS>...\n\n" ++
  "Arguments:\n" ++
  "  <INPUTS>...  Syntax tree files (JSON) produced by the WebIDL parser\n\n" ++
  "Options:\n" ++
  "  -o, --output <OUTPUT>            Write the resolved model here instead of stdout\n" ++
  "      --log-warning <LOG_WARNING>  Print warnings [possible values: true, false]\n" ++
  "      --config <CONFIG>            Settings file (TOML)\n" ++
  "  -t, --transform <TRANSFORMS>     Transformation script, applied in the order given\n" ++
  "      --error-limit <ERROR_LIMIT>  Stop after this many errors\n" ++
  "  -h, --help                       Print help\n" ++
  "  -V, --version                    Print version\n"

/-- The message for arguments that cannot be understood. -/
def misuseText : String :=
  "error: invalid arguments\n\nUsage: webidl_bind [OPTIONS] <INPUTS>...\n\n" ++
  "For more information, try '--help'.\n"

section Program

variable {m : Type → Type} [Monad m] (host : Host m)

/-- Read a file and make something of its text. -/
def load {α : Type} (path : String) (unreadable invalid : FileProblem) (make? : String → Option α) :
    ExceptT FileProblem m α := do
  match ← host.readText path with
  | none => throw unreadable
  | some text =>
      match make? text with
      | none => throw invalid
      | some a => return a

/-- The settings that the options ask for. -/
def loadSettings (o : Options) : ExceptT FileProblem m Settings := do
  let settings ← match o.config with
    | none => pure ({} : Settings)
    | some path => load host path (.unreadableConfig path) (.invalidConfig path) Settings.read?
  return { settings with
    logWarnings := o.logWarning.getD settings.logWarnings
    errorLimit := o.errorLimit.getD settings.errorLimit }

/-- A syntax tree.  One without a name is known by its path. -/
def loadDocument (path : String) : ExceptT FileProblem m Syntax.Document := do
  let d ← load host path (.unreadableTree path) (.invalidTree path) Syntax.Document.read?
  return if d.name.isEmpty then { d with name := path } else d

/-- A script. -/
def loadScript (path : String) : ExceptT FileProblem m Script.Source :=
  load host path (.unreadableScript path) (.unreadableScript path) fun text =>
    some { file := path, text }

/-- Everything that a compilation starts from. -/
def loadAll (o : Options) :
    ExceptT FileProblem m (Settings × List Syntax.Document × List Script.Source) := do
  let settings ← loadSettings host o
  let documents ← o.inputs.mapM (loadDocument host)
  let scripts ← o.transforms.mapM (loadScript host)
  return (settings, documents, scripts)

/-- Put a finished model where the options want it. -/
def deliver (o : Options) (messages : String) (display : Log.Display) (model : CompiledModel) :
    m Outcome := do
  match o.output with
  | none => return { output := model.text ++ "\n", messages }
  | some path =>
      if ← host.writeText path model.text then
        return { messages := messages ++ display.paint .green "✓" ++ " " ++
          toString model.entityCount ++ " entities in " ++ toString model.packages.length ++
          " packages written to " ++ path ++ "\n" }
      else
        return { code := 1, messages := messages ++ (FileProblem.unwritableOutput path).message }

/-- Compile what the options name. -/
def compileFiles (o : Options) : m Outcome := do
  match ← (loadAll host o).run with
  | .error problem => return { code := 1, messages := problem.message }
  | .ok (settings, documents, scripts) =>
      let display : Log.Display := { colors := host.colors, warnings := settings.logWarnings }
      match compile documents scripts { settings } with
      | .ok model c => deliver host o (c.log.render display) display model
      | .error stop c =>
          let mark := display.paint .red "✗"
          return { code := 1, messages := c.log.render display ++ mark ++ " " ++ stop.message ++ "\n" }

/-- Do what the arguments ask for. -/
def run (args : List String) : m Outcome :=
  match Request.ofArgs args with
  | .help => return { output := helpText }
  | .version => return { output := versionText }
  | .misuse => return { code := 2, messages := misuseText }
  | .compile o => compileFiles host o

end Program

end IdlModel.CommandLine
