import IdlModel.CompiledModel
import IdlModel.Declarations
import IdlModel.Linking
import IdlModel.Merging
import IdlModel.MethodNames
import IdlModel.Promises
import IdlModel.Script.Run

/-!
# Compiling

A run goes through its stages in order.

1. The documents are declared.
2. The fragments are folded into their bases.
3. The interfaces are linked, and all that they lead to.
4. The promises become interfaces of their own.
5. Methods of one name are told apart.
6. The scripts are run.

A stage only starts if no error was reported before.  When all of them have
finished, the table is moved out of the run into the result.
-/

namespace IdlModel

open Syntax (Document)

/-- The action of a stage. -/
def Stage.action (documents : List Document) (scripts : List Script.Source) : Stage → CompileM Unit
  | .extract => documents.forM declareDocument
  | .merge => mergeFragments
  | .link => linkInterfaces
  | .promise => instantiatePromises
  | .overrides => resolveMethodNames
  | .transform => runScripts scripts

/-- The stages in order. -/
def Stage.all : List Stage := [.extract, .merge, .link, .promise, .overrides, .transform]

/-- Run a stage, and stop if there are errors then. -/
def runStage (action : CompileM Unit) (stage : Stage) : CompileM Unit := do
  action
  let errors := (← get).log.errorCount
  if errors ≠ 0 then throw (.aborted stage errors)

/-- Move the table out of a run.  An empty one is left behind. -/
def takeTable : CompileM SymbolTable := modifyGet fun c => (c.table, { c with table := {} })

/-- Compile documents and run scripts on the result. -/
def compile (documents : List Document) (scripts : List Script.Source) : CompileM CompiledModel := do
  Stage.all.forM fun stage => runStage (stage.action documents scripts) stage
  return .ofTable (← takeTable)

end IdlModel
