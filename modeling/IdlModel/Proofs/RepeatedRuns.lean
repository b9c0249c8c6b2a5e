import IdlModel.Proofs.MergedEntities
import IdlModel.Proofs.Outcomes
import IdlModel.Proofs.Relinking

/-!
# Repeated runs

One compilation after another in the same state.

*Drained states.*  A state is *drained* if its table is empty, no fragment waits and no error was
reported.  A run that finishes drains the state: merging takes the fragments and no later stage
puts any aside, the table is moved into the result, and with an error some stage would have
stopped the run.  Only the settings and warnings are left.  The template of promises belongs to no
state: it is what its definitions declare in a new one, whatever was compiled before.

*Continued logs.*  A log *continues* another one if it starts with it.  That the diagnostics of
earlier runs come first is unseen as long as there are no errors among them.  So a run from a
drained state agrees with the run from a new one, but for what the log already held.
-/

namespace IdlModel

open Compilation (Alike)
open Syntax (Document)

/-! ## The template of promises -/

namespace PromiseTemplate

/-- The definitions of the template. -/
def document : Document :=
  { name := source.file
    definitions :=
      [.interface
          { name := "PromiseTemplate"
            members :=
              [.operation
                  { name := "then"
                    returnType := .named "PromiseTemplate"
                    args :=
                      [{ name := "onFulfilled", type := .named "PromiseTemplateOnFulfilled" },
                        { name := "onRejected", type := .named "PromiseTemplateOnRejected",
                          optional := true }] },
                .operation
                  { name := "catch"
                    returnType := .named "PromiseTemplate"
                    args :=
                      [{ name := "onRejected", type := .named "PromiseTemplateOnRejected" }] }] },
        .callback
          { name := "PromiseTemplateOnFulfilled"
            returnType := .named "void"
            args := [{ name := "value", type := .named "PromiseTemplateElement" }] },
        .callback
          { name := "PromiseTemplateOnRejected"
            returnType := .named "void"
            args := [{ name := "reason", type := .named "any" }] }] }

/-- The names in the template that stand for what varies. -/
def placeholders : List (String × Placeholder) :=
  [("PromiseTemplate", .promise), ("PromiseTemplateOnFulfilled", .onFulfilled),
    ("PromiseTemplateOnRejected", .onRejected), ("PromiseTemplateElement", .element)]

/-- A type of the template with its placeholders. -/
def withPlaceholders (t : TypeRef) : TypeRef :=
  t.mapLeaves fun
    | .unlinked name => ((placeholders.lookup name).map .placeholder).getD (.unlinked name)
    | leaf => leaf

/-- A part of the template as it was declared in a table. -/
def part? (t : SymbolTable) (name : String) : Option Entity :=
  ((t.lookupType? name).bind t.entity?).map fun e => e.mapTypes withPlaceholders

/-- The template is what its definitions declare in a new state, but for its mark. -/
theorem builtin_declared :
    ∃ c, declareDocument document {} = .ok () c ∧ c.log.entries = #[] ∧
      (builtin.entities fun ending =>
          { identity ("PromiseTemplate" ++ ending) with template := none }).map some =
        ["PromiseTemplate", "PromiseTemplateOnFulfilled", "PromiseTemplateOnRejected"].map
          (part? c.table) :=
  ⟨_, rfl, rfl, rfl⟩

end PromiseTemplate
/-! ## Fragments -/

/-- What waits is the same. -/
def SameFragments (c c' : Compilation) : Prop := c'.fragments = c.fragments

namespace SameFragments

theorem refl (c : Compilation) : SameFragments c c := rfl

theorem trans ⦃c c' c'' : Compilation⦄ (h : SameFragments c c') (h' : SameFragments c' c'') :
    SameFragments c c'' := Eq.trans h' h

theorem spans : Linker.Spans fun l l' => SameFragments l.compilation l'.compilation where
  refl l := .refl l.compilation
  trans _ _ _ h h' := h.trans h'
  add _ _ := rfl
  withTable _ _ := rfl
  enter _ _ := rfl

theorem replaces : Replaces SameFragments where
  refl := .refl
  trans := .trans
  report _ _ _ := rfl
  mark _ _ := rfl
  make _ _ _ _ _ := rfl

theorem edits : Edits SameFragments where
  refl := .refl
  trans := .trans
  report _ _ _ := rfl
  put _ _ _ _ _ _ := rfl

end SameFragments

/-- Once they are merged, no fragments are put aside or taken. -/
theorem endsAlong_sameFragments (documents : List Document) (scripts : List Script.Source)
    {stage : Stage} (hstage : stage ∈ [Stage.link, .promise, .overrides, .transform]) :
    EndsAlong SameFragments (stage.action documents scripts) := by
  cases stage with
  | extract => exact absurd hstage (by decide)
  | merge => exact absurd hstage (by decide)
  | link =>
      intro c
      show SameFragments c (endState (withLinker Linker.linkRoots c))
      rw [endState_withLinker]
      exact SameFragments.spans.tracks.linkRoots { compilation := c }
  | promise => exact SameFragments.replaces.instantiatePromises fun _ _ _ _ _ h _ _ => h
  | overrides => exact endsAlong_polled .refl .trans fun _ => rfl
  | transform => exact SameFragments.edits.runScriptsBy Pattern.accepts scripts

theorem fragments_mergeFragments {c c' : Compilation} {u : Unit}
    (h : mergeFragments c = .ok u c') : c'.fragments = {} := by
  rw [(mergeFragments_spec h).2]

/-! ## Drained states -/

/-- Nothing of earlier runs is left but diagnostics, and they are no errors. -/
structure Compilation.Drained (settings : Settings) (c : Compilation) : Prop where
  settings : c.settings = settings
  table : c.table = {}
  fragments : c.fragments = {}
  errors : c.errors = 0

theorem drained_new (settings : Settings) : Compilation.Drained settings { settings } :=
  ⟨rfl, rfl, rfl, rfl⟩

section Drained

variable {documents : List Document} {scripts : List Script.Source} {settings : Settings}
  {c c' : Compilation}

/-- The settings stay in all stages, and merging leaves no fragment for the stages behind. -/
theorem Compilation.Drained.stages (h : c.Drained settings)
    (hrun : (Stage.all.forM fun stage => runStage (stage.action documents scripts) stage) c =
      .ok () c') : c'.settings = settings ∧ c'.fragments = {} ∧ c'.errors = 0 := by
  have hsettings : Keeps (fun c => c.settings = settings ∧ c.errors ≤ settings.errorLimit)
      (Stage.all.forM fun stage => runStage (stage.action documents scripts) stage) :=
    .forM fun stage _ => (polled_action documents scripts stage).runStage.keeps
  have hlater : Keeps (fun c : Compilation => c.fragments = {} ∧ c.errors = 0)
      ([Stage.link, .promise, .overrides, .transform].forM fun stage =>
        runStage (stage.action documents scripts) stage) := by
    refine .forM fun stage hstage c₀ hc₀ u c₁ hrun => ?_
    obtain ⟨haction, herrors⟩ := runStage_ok.mp hrun
    have hsame := endsAlong_sameFragments documents scripts hstage c₀
    rw [haction] at hsame
    exact ⟨Eq.trans hsame hc₀.1, herrors⟩
  have hkept := (hsettings c ⟨h.settings, h.errors ▸ Nat.zero_le _⟩ _ _ hrun).1
  obtain ⟨extracted, -, hrun⟩ := forM_cons_ok.mp hrun
  obtain ⟨merged, hmerge, hrun⟩ := forM_cons_ok.mp hrun
  obtain ⟨haction, herrors⟩ := runStage_ok.mp hmerge
  exact ⟨hkept, hlater merged ⟨fragments_mergeFragments haction, herrors⟩ _ _ hrun⟩

/-- A run that finishes leaves a drained state. -/
theorem keeps_drained (documents : List Document) (scripts : List Script.Source) :
    Keeps (Compilation.Drained settings) (compile documents scripts) := by
  intro c hc model c' h
  obtain ⟨_, finished, hstages, hrest⟩ := bind_ok.mp h
  obtain ⟨table, taken, htake, hmodel⟩ := bind_ok.mp hrest
  obtain ⟨-, rfl⟩ := pure_ok.mp hmodel
  obtain ⟨hsettings, hfragments, herrors⟩ := hc.stages hstages
  cases htake
  exact ⟨hsettings, rfl, hfragments, herrors⟩

end Drained

/-! ## Continued logs -/

/-- A log continues an earlier one with the diagnostics of another log. -/
def Log.Continues (earlier l l' : Log) : Prop := l'.entries = earlier.entries ++ l.entries

/-- Diagnostics that come before are unseen if no error is among them. -/
theorem Log.unseen_continues {earlier : Log} (h : earlier.errorCount = 0) :
    Unseen (Continues earlier) where
  errorCount_eq l l' hl := by
    have hcount : l'.errorCount = earlier.errorCount + l.errorCount := by
      rw [errorCount, hl, Array.countP_append, errorCount, errorCount]
    rw [hcount, h, Nat.zero_add]
  add l l' hl d := by
    show l'.entries.push d = earlier.entries ++ l.entries.push d
    rw [hl, Array.append_push]

namespace Compilation.Drained

variable {settings : Settings} {c : Compilation} (h : c.Drained settings)
include h

/-- A drained state is a new one with a log of its own. -/
theorem alike_new : Alike (Log.Continues c.log) { settings } c := by
  obtain ⟨settings, table, log, fragments⟩ := c
  obtain ⟨rfl, rfl, rfl, herrors⟩ := h
  exact .mk (by simp [Log.Continues])

/-- A run from a drained state ends as one from a new state. -/
theorem sameEnd (documents : List Document) (scripts : List Script.Source) :
    SameEnd (Alike (Log.Continues c.log)) (compile documents scripts { settings })
      (compile documents scripts c) :=
  agreesRun_compile (Log.unseen_continues h.errors) documents scripts h.alike_new

end Compilation.Drained

/-! ## Sequences of runs -/

/-- Actions on the elements of a list, one after the other. -/
theorem Keeps.mapM {ε σ α β : Type} {P : σ → Prop} {f : α → EStateM ε σ β} {as : List α}
    (h : ∀ a ∈ as, Keeps P (f a)) : Keeps P (as.mapM f) := by
  induction as with
  | nil => exact .pure _
  | cons a as ih =>
    obtain ⟨hfirst, hrest⟩ := List.forall_mem_cons.mp h
    rw [List.mapM_cons]
    exact hfirst.bind fun _ => (ih hrest).bind fun _ => .pure _

/-- A state in which any inputs were compiled is as good as a new one.

If all of them compiled, a further input compiles to the same model as in a new state with the
same settings, or stops for the same reason with the same table left, and it appends the same
diagnostics. -/
theorem compile_after_finished {settings : Settings}
    {inputs : List (List Document × List Script.Source)} {models : List CompiledModel}
    {c : Compilation}
    (h : inputs.mapM (fun input => compile input.1 input.2) { settings } = .ok models c)
    (documents : List Document) (scripts : List Script.Source) :
    SameEnd (Alike (Log.Continues c.log)) (compile documents scripts { settings })
      (compile documents scripts c) :=
  have hkeeps : Keeps (Compilation.Drained settings)
      (inputs.mapM fun input => compile input.1 input.2) :=
    .mapM fun input _ => keeps_drained input.1 input.2
  (hkeeps _ (drained_new settings) _ _ h).sameEnd documents scripts

/-- The definition `[Odd] interface Reader { Promise<long> next(); };`.  The extended attribute
is a warning. -/
def oddReader : Document :=
  { name := "reader.idl"
    definitions :=
      [.interface
        { name := "Reader"
          annotations := [{ name := "Odd" }]
          members := [.operation
            { name := "next", returnType := .generic "Promise" [.named "long"] }] }] }

theorem compile_after_finished_oddReader :
    ∃ models c, [([oddReader], []), ([oddReader], [])].mapM
        (fun input => compile input.1 input.2) { settings := {} } = .ok models c ∧
      c.log.entries.size = 2 ∧
      SameEnd (Alike (Log.Continues c.log)) (compile [missingType] [] { settings := {} })
        (compile [missingType] [] c) := by
  have hfinishes : (match [([oddReader], []), ([oddReader], [])].mapM
        (fun input => compile input.1 input.2) { settings := {} } with
      | .ok _ c => c.log.entries.size == 2
      | .error _ _ => false) = true := by decide +kernel
  split at hfinishes
  next models c h =>
    exact ⟨models, c, h, beq_iff_eq.mp hfinishes, compile_after_finished h [missingType] []⟩
  next => exact absurd hfinishes Bool.false_ne_true

end IdlModel
