import IdlModel.Model.SymbolTable
import IdlModel.Report.Log
import IdlModel.Settings.Basic

/-!
# Compilations

The state of a run: its settings, the symbol table, the log, and the fragments
that wait for their bases.  A run goes through six *stages*.  A stage is an
action on this state, and it may *stop* the run.

* It stops for too many errors as soon as a poll finds more of them than the
  settings allow.  Stages poll at places of their own.
* It stops when it has finished and there are errors.
* It stops at once at a construct that nothing can be done with.

What a stage did before it stopped stays in the state.
-/

namespace IdlModel

/-- The stages of a run, in order. -/
inductive Stage where
  | extract | merge | link | promise | overrides | transform
deriving DecidableEq, Repr

/-- The name of a stage. -/
def Stage.text : Stage → String
  | .extract => "extract"
  | .merge => "merge"
  | .link => "link"
  | .promise => "promise"
  | .overrides => "overrides"
  | .transform => "transform"

/-- Why a run ends early. -/
inductive Stop where
  /-- There are more errors than the settings allow. -/
  | tooManyErrors
  /-- A stage has finished with this number of errors reported. -/
  | aborted (stage : Stage) (errors : Nat)
  /-- A construct with this issue cannot be handled. -/
  | fatal (issue : Issue)
deriving Repr

/-- The message of a stop. -/
def Stop.message : Stop → String
  | .tooManyErrors => "stop: too many errors"
  | .aborted stage errors => stage.text ++ " failed with " ++ toString errors ++ " error(s)"
  | .fatal issue => "fatal: " ++ issue.message

/-- Declarations that wait until everything is declared. -/
structure Fragments where
  /-- Fragments of interfaces. -/
  interfaces : List Interface := []
  /-- Fragments of dictionaries. -/
  dictionaries : List Dictionary := []
  /-- Fragments of mixins. -/
  mixins : List Mixin := []
  /-- Includes statements. -/
  inclusions : List Inclusion := []
deriving Repr, Inhabited

/-- The state of a run. -/
structure Compilation where
  /-- The settings. -/
  settings : Settings := {}
  /-- The model. -/
  table : SymbolTable := {}
  /-- What was reported. -/
  log : Log := {}
  /-- What waits for its base. -/
  fragments : Fragments := {}
deriving Inhabited

/-- An action on the state of a run that may stop it. -/
abbrev CompileM := EStateM Stop Compilation

namespace Compilation

/-- Whether there are more errors than the settings allow. -/
def isOverLimit (c : Compilation) : Bool := c.settings.errorLimit < c.log.errorCount

/-- Report an issue at a place. -/
def report (c : Compilation) (issue : Issue) (at_ : Location) : Compilation :=
  { c with log := c.log.report issue at_ }

/-- Add a diagnostic. -/
def add (c : Compilation) (d : Diagnostic) : Compilation := { c with log := c.log.add d }

end Compilation

/-- Stop if there are more errors than the settings allow. -/
def checkLimit : CompileM Unit := do
  if (← get).isOverLimit then throw .tooManyErrors

end IdlModel
