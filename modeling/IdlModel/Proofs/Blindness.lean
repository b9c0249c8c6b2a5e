import IdlModel.Proofs.StageAgreement

/-!
# Blindness to warnings

No decision of a run depends on a warning.

*Quiet states.*  `Compilation.quiet` takes the warnings out of the log.  A run is *blind* if it
does the same on a state and on the quiet state: it gives the same answer or stops for the same
reason, and behind it the quiet states are the same.

*Agreement.*  To have the same errors is a relation between logs that is unseen.  So the stages
and whole runs are blind, for they agree on compilations that are alike.
-/

namespace IdlModel

/-! ## Quiet states -/

/-- States from which something can be taken out. -/
class Quiets (σ : Type) where
  /-- The state without it. -/
  quiet : σ → σ
  quiet_quiet : ∀ s, quiet (quiet s) = quiet s

export Quiets (quiet quiet_quiet)

attribute [simp] quiet_quiet

section Blind

variable {ε σ α : Type} [Quiets σ]

/-- The quiet result of a run. -/
def quietResult : EStateM.Result ε σ α → EStateM.Result ε σ α
  | .ok a s => .ok a (quiet s)
  | .error e s => .error e (quiet s)

/-- An action that may stop does the same on a quiet state. -/
def BlindRun (x : EStateM ε σ α) : Prop := ∀ s, quietResult (x (quiet s)) = quietResult (x s)

/-- Blind runs from states with the same quiet state. -/
theorem BlindRun.congr {x : EStateM ε σ α} (hx : BlindRun x) {s s' : σ} (h : quiet s = quiet s') :
    quietResult (x s) = quietResult (x s') := by
  rw [← hx s, h, hx s']

end Blind

/-! ## Logs with the same errors -/

namespace Log

/-- The log without its warnings. -/
def errorsOnly (l : Log) : Log := ⟨l.entries.filter (·.isError)⟩

@[simp] theorem errorCount_errorsOnly (l : Log) : l.errorsOnly.errorCount = l.errorCount := by
  simp [errorsOnly, errorCount, Array.countP_filter]

@[simp] theorem errorsOnly_errorsOnly (l : Log) : l.errorsOnly.errorsOnly = l.errorsOnly := by
  simp [errorsOnly]

theorem errorsOnly_add (l : Log) (d : Diagnostic) :
    (l.add d).errorsOnly = if d.isError then l.errorsOnly.add d else l.errorsOnly := by
  have hsize : (l.add d).entries.size = l.entries.size + 1 := Array.size_push d
  by_cases hd : d.isError = true
  · rw [if_pos hd]
    exact congrArg Log.mk (Array.filter_push_of_pos hd hsize)
  · rw [if_neg hd]
    exact congrArg Log.mk (Array.filter_push_of_neg hd hsize)

/-- Two logs have the same errors. -/
def SameErrors (l l' : Log) : Prop := l'.errorsOnly = l.errorsOnly

theorem unseen_sameErrors : Unseen SameErrors where
  errorCount_eq l l' h := by
    rw [← l'.errorCount_errorsOnly, h, l.errorCount_errorsOnly]
  add l l' h d := by
    rw [SameErrors, errorsOnly_add, errorsOnly_add, h]

end Log

/-! ## Quiet compilations -/

namespace Compilation

instance : Quiets Compilation where
  quiet c := { c with log := c.log.errorsOnly }
  quiet_quiet c := by simp

theorem alike_sameErrors_iff {c c' : Compilation} :
    Alike Log.SameErrors c c' ↔ quiet c' = quiet c := by
  constructor
  · rintro ⟨h⟩
    exact congrArg (fun log => { c with log }) h
  · obtain ⟨settings, table, log, fragments⟩ := c
    obtain ⟨settings', table', log', fragments'⟩ := c'
    intro h
    obtain ⟨rfl, rfl, hlog, rfl⟩ := Compilation.mk.inj h
    exact .mk hlog

end Compilation

open Compilation

section Runs

variable {α : Type} {r r' : EStateM.Result Stop Compilation α} {x : CompileM α}

theorem sameEnd_sameErrors_iff :
    SameEnd (Alike Log.SameErrors) r r' ↔ quietResult r' = quietResult r := by
  constructor
  · rintro (⟨a, h⟩ | ⟨e, h⟩)
    · exact congrArg (EStateM.Result.ok a) (alike_sameErrors_iff.mp h)
    · exact congrArg (EStateM.Result.error e) (alike_sameErrors_iff.mp h)
  · intro h
    cases r with
    | ok a c =>
        cases r' with
        | ok a' c' =>
            obtain ⟨rfl, hquiet⟩ := EStateM.Result.ok.inj h
            exact .ok a' (alike_sameErrors_iff.mpr hquiet)
        | error _ _ => cases h
    | error e c =>
        cases r' with
        | ok _ _ => cases h
        | error e' c' =>
            obtain ⟨rfl, hquiet⟩ := EStateM.Result.error.inj h
            exact .error e' (alike_sameErrors_iff.mpr hquiet)

/-- To be blind is to agree on compilations with the same errors. -/
theorem blindRun_iff : BlindRun x ↔ AgreesRun (Alike Log.SameErrors) x := by
  constructor
  · intro h c c' hc
    exact sameEnd_sameErrors_iff.mpr (h.congr (alike_sameErrors_iff.mp hc))
  · intro h c
    exact sameEnd_sameErrors_iff.mp (h (alike_sameErrors_iff.mpr (quiet_quiet c)))

end Runs

/-! ## Stages and whole runs -/

theorem blindRun_action (documents : List Syntax.Document) (scripts : List Script.Source)
    (stage : Stage) : BlindRun (stage.action documents scripts) :=
  blindRun_iff.mpr (agreesRun_action Log.unseen_sameErrors documents scripts stage)

theorem blindRun_runStage {action : CompileM Unit} (h : BlindRun action) (stage : Stage) :
    BlindRun (runStage action stage) :=
  blindRun_iff.mpr (agreesRun_runStage Log.unseen_sameErrors (blindRun_iff.mp h) stage)

/-- A compilation does the same whatever warnings there were before. -/
theorem blindRun_compile (documents : List Syntax.Document) (scripts : List Script.Source) :
    BlindRun (compile documents scripts) :=
  blindRun_iff.mpr (agreesRun_compile Log.unseen_sameErrors documents scripts)

end IdlModel
