import IdlModel.Compilation
import IdlModel.Script.Editing
import IdlModel.Script.Statement

/-!
# Running scripts

*Blocks.*  The edits of a block work on a copy of its entity.  The copy takes
the place of the entity only if none of them failed, so a block with an error
leaves its entity as it was.  The selections in a block run behind its edits.

*Selections.*  What a selection is for is settled before its first edit.  Every
entity is edited on its own.

*Limit.*  Over the limit of errors nothing is done any more.  The run stops
before the next item, behind the last item, and behind each script.
-/

namespace IdlModel

namespace Compilation

open Script (Action Block Item Selection)

/-- Make the edits of a block at a copy of its entity.  Without a second result
the run was over its limit before the last action. -/
def editCopy (file : String) : List Action → Entity → Compilation → Compilation × Option Entity
  | [], e, c => (c, some e)
  | action :: rest, e, c =>
      if c.isOverLimit then (c, none)
      else
        match action.effect with
        | .select _ => editCopy file rest e c
        | .edit edit =>
            match edit.apply c.table e with
            | .ok e => editCopy file rest e c
            | .error issue => editCopy file rest e (c.report issue ⟨file, action.line⟩)

/-- Make the edit of a selection at one entity. -/
def editOne (file : String) (s : Selection) (line : Nat) (c : Compilation) (id : EntityId) :
    Compilation :=
  if c.isOverLimit then c
  else
    match c.table.entity? id with
    | none => c
    | some e =>
        match s.edit.apply c.table e with
        | .ok e => { c with table := c.table.set id e }
        | .error issue => c.report issue ⟨file, line⟩

/-- The entities that a selection is for. -/
def selected (c : Compilation) (s : Selection) : List EntityId :=
  c.table.ids.filter fun id =>
    (c.table.entity? id).any fun e => s.filter.passes e.kind && s.pattern.accepts e.key

/-- Make the edit of a selection at every entity that it is for. -/
def applySelection (file : String) (s : Selection) (line : Nat) (c : Compilation) : Compilation :=
  (c.selected s).foldl (editOne file s line) c

/-- Run the selections among some actions. -/
def applySelections (file : String) (actions : List Action) (c : Compilation) : Compilation :=
  actions.foldl (fun c action =>
    match action.effect with
    | .select s => if c.isOverLimit then c else c.applySelection file s action.line
    | .edit _ => c) c

/-- Put an edited copy in the place of its entity, unless there are new
errors. -/
def commit (c : Compilation) (errors : Nat) (id : EntityId) (e : Entity) : Compilation :=
  if c.log.errorCount = errors then { c with table := c.table.set id e } else c

/-- Run a block. -/
def applyBlock (file : String) (b : Block) (c : Compilation) : Compilation :=
  match c.table.lookupType? b.name with
  | none => c.report (.unknownType b.name) ⟨file, b.line⟩
  | some id =>
      match c.table.entity? id with
      | none => c
      | some e =>
          match editCopy file b.actions e c with
          | (edited, none) => edited
          | (edited, some e) =>
              (edited.commit c.log.errorCount id e).applySelections file b.actions

/-- Run an item of a script. -/
def applyItem (file : String) (item : Item) (c : Compilation) : Compilation :=
  match item with
  | .block b => c.applyBlock file b
  | .global s line => c.applySelection file s line

end Compilation

/-- Run a script. -/
def Script.run (script : Script) : CompileM Unit := do
  script.items.forM fun item => do
    checkLimit
    modify (·.applyItem script.file item)
  checkLimit

/-- Read a script and run it. -/
def Script.Source.run (source : Script.Source) : CompileM Unit := do
  let (script, reports) := Script.read source
  modify fun c => reports.foldl (fun c (issue, line) => c.report issue ⟨source.file, line⟩) c
  match script with
  | some script => script.run
  | none => pure ()
  checkLimit

/-- Run scripts, one after the other. -/
def runScripts (sources : List Script.Source) : CompileM Unit := sources.forM Script.Source.run

end IdlModel
