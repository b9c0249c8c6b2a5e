import IdlModel.Proofs.Presentation
import IdlModel.Proofs.Blindness

/-!
# Outcomes

How a compilation ends says what was reported.

*Honesty.*  A result is honest at a stage if it keeps the promises that its case makes: one that
is finished is within the limit of errors, one that has too many errors is over it, and one that
is fatal has its issue at the end of the log.

*Polls.*  An action is *polled* if it has honest results wherever it starts within the limit.  So
is every change that reports nothing, and every other change with a poll behind it.  The stages
are made of these two, and so all of them are polled.

*Runs.*  A run that ends early has gone through some stages, and the next one has stopped.  Behind
it nothing has happened: `compile_outcome`.
-/

namespace IdlModel

open Compilation

/-! ## Honesty -/

/-- What a stop says about the compilation that a stage has left. -/
inductive Stop.HoldsAt (stage : Stage) (c : Compilation) : Stop → Prop where
  | tooManyErrors : c.settings.errorLimit < c.errors → HoldsAt stage c .tooManyErrors
  | aborted : 1 ≤ c.errors → c.errors ≤ c.settings.errorLimit →
      HoldsAt stage c (.aborted stage c.errors)
  | fatal {name implemented : String} {d : Diagnostic} : c.log.entries.back? = some d →
      d.issue = .unsupportedImplementation name implemented →
        HoldsAt stage c (.fatal (.unsupportedImplementation name implemented))

/-- A result of a stage with these settings that says what was reported. -/
def Honest {α : Type} (settings : Settings) (stage : Stage) :
    EStateM.Result Stop Compilation α → Prop
  | .ok _ c => c.settings = settings ∧ c.errors ≤ settings.errorLimit
  | .error stop c => c.settings = settings ∧ stop.HoldsAt stage c

/-- An action that has honest results if it starts within the limit. -/
def Polled {α : Type} (settings : Settings) (stage : Stage) (action : CompileM α) : Prop :=
  ∀ c, c.settings = settings → c.errors ≤ settings.errorLimit → Honest settings stage (action c)

theorem honest_checkLimit {settings : Settings} {c : Compilation} (h : c.settings = settings)
    (stage : Stage) : Honest settings stage (checkLimit c) := by
  rw [checkLimit_run]
  cases hlimit : c.isOverLimit with
  | true => exact ⟨h, .tooManyErrors (isOverLimit_iff.mp hlimit)⟩
  | false => exact ⟨h, h ▸ not_isOverLimit_iff.mp hlimit⟩

/-- An action that has honest results, but for the limit when it has finished. -/
def Loose {α : Type} (settings : Settings) (stage : Stage) (action : CompileM α) : Prop :=
  ∀ c, c.settings = settings →
    match action c with
    | .ok _ c' => c'.settings = settings
    | .error stop c' => c'.settings = settings ∧ stop.HoldsAt stage c'

namespace Loose

variable {α β : Type} {settings : Settings} {stage : Stage}

theorem pure (a : α) : Loose settings stage (Pure.pure a) := fun _ hsettings => hsettings

theorem bind {x : CompileM α} {f : α → CompileM β} (hx : Loose settings stage x)
    (hf : ∀ a, Loose settings stage (f a)) : Loose settings stage (x >>= f) := by
  intro c hsettings
  have hfirst := hx c hsettings
  cases hrun : x c with
  | ok a c₁ =>
      rw [hrun] at hfirst
      rw [bind_run hrun]
      exact hf a c₁ hfirst
  | error stop c₁ =>
      rw [hrun] at hfirst
      rw [bind_error hrun]
      exact hfirst

theorem forM {f : α → CompileM PUnit} {as : List α} (h : ∀ a ∈ as, Loose settings stage (f a)) :
    Loose settings stage (as.forM f) := by
  induction as with
  | nil => exact pure _
  | cons a as ih =>
    obtain ⟨hfirst, hrest⟩ := List.forall_mem_cons.mp h
    rw [List.forM_eq_forM, List.forM_cons, ← List.forM_eq_forM]
    exact hfirst.bind fun _ => ih hrest

theorem change {f : Compilation → Compilation} (hsettings : ∀ c, (f c).settings = c.settings) :
    Loose settings stage (modify f : CompileM PUnit) := fun c h => (hsettings c).trans h

theorem checkLimit : Loose settings stage checkLimit := by
  intro c hsettings
  have hpoll := honest_checkLimit hsettings stage
  cases hrun : IdlModel.checkLimit c with
  | ok _ c₁ =>
      rw [hrun] at hpoll
      exact hpoll.1
  | error stop c₁ =>
      rw [hrun] at hpoll
      exact hpoll

end Loose

namespace Polled

variable {α β : Type} {settings : Settings} {stage : Stage}

theorem pure (a : α) : Polled settings stage (Pure.pure a) := fun _ hsettings hlimit =>
  ⟨hsettings, hlimit⟩

theorem bind {x : CompileM α} {f : α → CompileM β} (hx : Polled settings stage x)
    (hf : ∀ a, Polled settings stage (f a)) : Polled settings stage (x >>= f) := by
  intro c hsettings hlimit
  have hfirst := hx c hsettings hlimit
  cases hrun : x c with
  | ok a c₁ =>
      rw [hrun] at hfirst
      rw [bind_run hrun]
      exact hf a c₁ hfirst.1 hfirst.2
  | error stop c₁ =>
      rw [hrun] at hfirst
      rw [bind_error hrun]
      exact hfirst

theorem get_bind {f : Compilation → CompileM β} (hf : ∀ c, Polled settings stage (f c)) :
    Polled settings stage (get >>= f) := fun c hsettings hlimit => hf c c hsettings hlimit

theorem forM {f : α → CompileM PUnit} {as : List α} (h : ∀ a ∈ as, Polled settings stage (f a)) :
    Polled settings stage (as.forM f) := by
  induction as with
  | nil => exact pure _
  | cons a as ih =>
    obtain ⟨hfirst, hrest⟩ := List.forall_mem_cons.mp h
    rw [List.forM_eq_forM, List.forM_cons, ← List.forM_eq_forM]
    exact hfirst.bind fun _ => ih hrest

theorem checkLimit : Polled settings stage checkLimit := fun _ hsettings _ =>
  honest_checkLimit hsettings stage

/-- A change that reports no error. -/
theorem silent {f : Compilation → Compilation} (hsettings : ∀ c, (f c).settings = c.settings)
    (herrors : ∀ c, (f c).errors = c.errors) :
    Polled settings stage (modify f : CompileM PUnit) := fun c h hlimit =>
  ⟨(hsettings c).trans h, (herrors c).symm ▸ hlimit⟩

/-- A loose action, and then a poll. -/
theorem of_loose {x : CompileM Unit} (hx : Loose settings stage x) :
    Polled settings stage (do x; IdlModel.checkLimit) := by
  intro c hsettings _
  have hfirst := hx c hsettings
  cases hrun : x c with
  | ok a c₁ =>
      rw [hrun] at hfirst
      rw [bind_run hrun]
      exact honest_checkLimit hfirst stage
  | error stop c₁ =>
      rw [hrun] at hfirst
      rw [bind_error hrun]
      exact hfirst

/-- Any change, and then a poll. -/
theorem change {f : Compilation → Compilation} (hsettings : ∀ c, (f c).settings = c.settings) :
    Polled settings stage (do modify f; IdlModel.checkLimit) :=
  of_loose (.change hsettings)

end Polled

/-! ## Settings -/

/-- Declaring leaves the settings as they are. -/
theorem declares_settings : Declares fun c c' => c'.settings = c.settings where
  refl _ := rfl
  trans _ _ _ h h' := h'.trans h
  report _ _ _ := rfl
  aside _ _ := rfl
  entity _ _ _ _ _ := rfl
  mixin _ _ _ _ := rfl
  typedef _ _ _ _ := rfl

/-- Replacing promises leaves the settings as they are. -/
theorem replaces_settings : Replaces fun c c' => c'.settings = c.settings where
  refl _ := rfl
  trans _ _ _ h h' := h'.trans h
  report _ _ _ := rfl
  mark _ _ := rfl
  make _ _ _ _ _ := rfl

theorem settings_withSettled {c : Compilation} {id : EntityId} {e : Entity}
    (he : c.table.entity? id = some e) : (c.withSettled id e).settings = c.settings :=
  replaces_settings.withSettled (fun _ _ _ _ _ h _ _ => h) he

/-- Scripts leave the settings as they are. -/
theorem edits_settings : Edits fun c c' => c'.settings = c.settings where
  refl _ := rfl
  trans _ _ _ h h' := h'.trans h
  report _ _ _ := rfl
  put _ _ _ _ _ _ := rfl

/-! ## Stages -/

section Stages

variable {settings : Settings} {stage : Stage}

/-- An implements statement is the last thing that is reported. -/
theorem polled_declareDefinition (file : String) (d : Syntax.Definition) :
    Polled settings stage (declareDefinition file d) := by
  cases d with
  | enumeration d => exact .change (declares_settings.declareEnumeration file d)
  | interface d => exact .change (declares_settings.declareInterface file d)
  | mixin d => exact .change (declares_settings.declareMixin file d)
  | dictionary d => exact .change (declares_settings.declareDictionary file d)
  | includes d => exact .silent (fun _ => rfl) fun _ => rfl
  | callback d => exact .change (declares_settings.declareCallback file d)
  | typedef d => exact .change (declares_settings.declareTypedef file d)
  | implementation d =>
      intro c hsettings _
      refine ⟨hsettings, .fatal Array.back?_push ?_⟩
      rfl

theorem polled_mergeFound {α : Type} (found : Except Issue α) (source : Location)
    (change : α → SymbolTable → SymbolTable) :
    Polled settings stage (mergeFound found source change) := by
  cases found with
  | ok x => exact .silent (fun _ => rfl) fun _ => rfl
  | error issue => exact .change fun _ => rfl

theorem polled_mergeFragments : Polled settings stage mergeFragments := by
  have htake : Polled settings stage (modify fun c => { c with fragments := {} }) :=
    .silent (fun _ => rfl) fun _ => rfl
  refine .get_bind fun c => htake.bind fun _ => ?_
  refine (Polled.forM fun d _ => ?_).bind fun _ => (Polled.forM fun d _ => ?_).bind fun _ =>
    (Polled.forM fun d _ => ?_).bind fun _ => Polled.forM fun d _ => ?_
  · exact .get_bind fun _ => polled_mergeFound _ _ _
  · exact .get_bind fun _ => polled_mergeFound _ _ _
  · exact .get_bind fun _ => (polled_mergeFound _ _ _).bind fun _ => .checkLimit
  · exact .get_bind fun _ => polled_mergeFound _ _ _

/-- The linker polls behind every interface. -/
theorem polled_withLinker (ids : List EntityId) :
    Polled settings stage (withLinker (ids.forM Linker.link)) := by
  intro c hsettings hlimit
  suffices h : ∀ l : Linker, l.compilation.settings = settings →
      l.compilation.errors ≤ settings.errorLimit →
        match ids.forM Linker.link l with
        | .ok _ l' =>
            l'.compilation.settings = settings ∧ l'.compilation.errors ≤ settings.errorLimit
        | .error stop l' =>
            l'.compilation.settings = settings ∧ stop.HoldsAt stage l'.compilation by
    have hrun := h { compilation := c } hsettings hlimit
    unfold withLinker
    cases hlinked : ids.forM Linker.link { compilation := c } with
    | ok _ l =>
        rw [hlinked] at hrun
        exact hrun
    | error stop l =>
        rw [hlinked] at hrun
        exact hrun
  intro l hsettings hlimit
  induction ids generalizing l with
  | nil => exact ⟨hsettings, hlimit⟩
  | cons id ids ih =>
    have hvisit := (Linker.spans_settings.tracks.visit l.table.size id l).trans hsettings
    have hlink := Linker.link_eq id l
    dsimp only at hlink
    cases hover : ((Linker.visit l.table.size id).run l).2.compilation.isOverLimit with
    | true =>
        rw [if_pos hover] at hlink
        rw [forM_cons_error hlink]
        exact ⟨hvisit, .tooManyErrors (isOverLimit_iff.mp hover)⟩
    | false =>
        rw [if_neg (by simp [hover])] at hlink
        rw [forM_cons_run hlink]
        exact ih _ hvisit (hvisit ▸ not_isOverLimit_iff.mp hover)

theorem polled_linkInterfaces : Polled settings stage linkInterfaces := fun c =>
  polled_withLinker (c.table.idsOf .interface) c

theorem polled_settlePromises (id : EntityId) : Polled settings stage (settlePromises id) := by
  intro c hsettings hlimit
  rw [settlePromises_run]
  split
  next => exact honest_checkLimit hsettings stage
  next e he => exact honest_checkLimit ((settings_withSettled he).trans hsettings) stage

theorem polled_instantiatePromises : Polled settings stage instantiatePromises :=
  .get_bind fun _ => .forM fun id _ => polled_settlePromises id

theorem polled_resolveMethodNames : Polled settings stage resolveMethodNames :=
  .change fun _ => rfl

theorem loose_script (script : Script) : Loose settings stage script.run := by
  refine (Loose.forM fun item _ => ?_).bind fun _ => .checkLimit
  exact Loose.checkLimit.bind fun _ =>
    .change (edits_settings.applyItemBy Pattern.accepts script.file item)

theorem polled_runScripts (sources : List Script.Source) :
    Polled settings stage (runScripts sources) := by
  refine .forM fun source _ => ?_
  unfold Script.Source.run
  generalize Script.read source = r
  obtain ⟨script, reports⟩ := r
  dsimp only
  have hreports := edits_settings.reports source.file reports
  cases script with
  | none => exact .change hreports
  | some script =>
      dsimp only
      rw [← bind_assoc]
      exact .of_loose ((Loose.change hreports).bind fun _ => loose_script script)

/-- Every stage is polled. -/
theorem polled_action (documents : List Syntax.Document) (scripts : List Script.Source)
    (stage : Stage) : Polled settings stage (stage.action documents scripts) := by
  cases stage with
  | extract => exact .forM fun d _ => .forM fun definition _ =>
      polled_declareDefinition d.name definition
  | merge => exact polled_mergeFragments
  | link => exact polled_linkInterfaces
  | promise => exact polled_instantiatePromises
  | overrides => exact polled_resolveMethodNames
  | transform => exact polled_runScripts scripts

/-- A stage that has finished with errors says how many there are. -/
theorem Polled.runStage {action : CompileM Unit} (h : Polled settings stage action) :
    Polled settings stage (runStage action stage) := by
  refine h.bind fun _ c hsettings hlimit => ?_
  change Honest settings stage
    ((if c.errors ≠ 0 then throw (.aborted stage c.errors) else Pure.pure () : CompileM Unit) c)
  split
  next herrors => exact ⟨hsettings, .aborted (Nat.pos_of_ne_zero herrors) (hsettings ▸ hlimit)⟩
  next => exact ⟨hsettings, hlimit⟩

theorem Polled.keeps {action : CompileM Unit} (h : Polled settings stage action) :
    Keeps (fun c => c.settings = settings ∧ c.errors ≤ settings.errorLimit) action := by
  rintro c ⟨hsettings, hlimit⟩ u c' hrun
  have hhonest := h c hsettings hlimit
  rw [hrun] at hhonest
  exact hhonest

end Stages

/-! ## Runs -/

/-- A stop does not come without an error. -/
theorem Stop.HoldsAt.errors_ne_zero {stage : Stage} {c : Compilation} {stop : Stop}
    (h : stop.HoldsAt stage c) : c.errors ≠ 0 := by
  cases h with
  | tooManyErrors h => exact Nat.ne_of_gt (Nat.zero_lt_of_lt h)
  | aborted h _ => exact Nat.ne_of_gt h
  | @fatal name implemented d hlast hissue =>
      refine Nat.ne_of_gt (Array.countP_pos_iff.mpr ⟨d, Array.mem_of_back? hlast, ?_⟩)
      rw [Diagnostic.isError, Diagnostic.severity, hissue]
      rfl

section Compile

variable {documents : List Syntax.Document} {scripts : List Script.Source} {settings : Settings}

theorem compile_ok_errors {model : CompiledModel} {c : Compilation}
    (h : compile documents scripts { settings } = .ok model c) : c.errors = 0 := by
  obtain ⟨_, finished, hstages, hrest⟩ := bind_ok.mp h
  obtain ⟨table, taken, htake, hmodel⟩ := bind_ok.mp hrest
  obtain ⟨-, rfl⟩ := pure_ok.mp hmodel
  have hkeeps : Keeps (fun c : Compilation => c.errors = 0) (Stage.all.forM fun stage =>
      runStage (stage.action documents scripts) stage) :=
    .forM fun stage _ _ _ _ _ hrun => (runStage_ok.mp hrun).2
  have hfinished : finished.errors = 0 := hkeeps _ rfl _ _ hstages
  cases htake
  exact hfinished

/-- A compilation that stops has gone through some stages, and the next one has stopped. -/
theorem compile_error {stop : Stop} {c : Compilation}
    (h : compile documents scripts { settings } = .error stop c) :
    ∃ before stage after c₀, Stage.all = before ++ stage :: after ∧
      (before.forM fun s => runStage (s.action documents scripts) s) { settings } = .ok () c₀ ∧
      runStage (stage.action documents scripts) stage c₀ = .error stop c ∧
      c.settings = settings ∧ stop.HoldsAt stage c := by
  have hstages : (Stage.all.forM fun stage => runStage (stage.action documents scripts) stage)
      { settings } = .error stop c := by
    cases hrun : (Stage.all.forM fun stage => runStage (stage.action documents scripts) stage)
        { settings } with
    | ok _ finished =>
        unfold compile at h
        rw [bind_run hrun] at h
        cases h
    | error stop' c' =>
        unfold compile at h
        rw [bind_error hrun] at h
        cases h
        rfl
  obtain ⟨before, stage, after, c₀, hall, hbefore, hstop⟩ := forM_error hstages
  have hkeeps : Keeps (fun c => c.settings = settings ∧ c.errors ≤ settings.errorLimit)
      (before.forM fun s => runStage (s.action documents scripts) s) :=
    .forM fun s _ => (polled_action documents scripts s).runStage.keeps
  obtain ⟨hsettings, hlimit⟩ := hkeeps _ ⟨rfl, Nat.zero_le _⟩ _ _ hbefore
  have hhonest := (polled_action documents scripts stage).runStage c₀ hsettings hlimit
  rw [hstop] at hhonest
  exact ⟨before, stage, after, c₀, hall, hbefore, hstop, hhonest⟩

end Compile

/-- The outcome of a compilation says what was reported.

It finishes if and only if there is no error.  If it is aborted, the stop names the stage and
the number of errors, which is within the limit.  If there are too many errors, they are over
the limit.  If it is fatal, the implements statement is the last thing in the log.  When it
stops, some stages have finished, the next one has stopped, and what is left is what this stage
has left.  Warnings, be they there from the start or from earlier stages, change nothing but
the warnings that are there in the end. -/
theorem compile_outcome (documents : List Syntax.Document) (scripts : List Script.Source)
    (settings : Settings) :
    ((∃ model c, compile documents scripts { settings } = .ok model c) ↔
        (endState (compile documents scripts { settings })).errors = 0) ∧
      (∀ stop c, compile documents scripts { settings } = .error stop c →
        ∃ before stage after c₀, Stage.all = before ++ stage :: after ∧
          (before.forM fun s => runStage (s.action documents scripts) s) { settings } =
            .ok () c₀ ∧
          runStage (stage.action documents scripts) stage c₀ = .error stop c ∧
          (∀ s errors, stop = .aborted s errors →
            s = stage ∧ errors = c.errors ∧ 1 ≤ errors ∧ errors ≤ settings.errorLimit) ∧
          (stop = .tooManyErrors → settings.errorLimit < c.errors) ∧
          ∀ issue, stop = .fatal issue → ∃ name implemented d,
            issue = .unsupportedImplementation name implemented ∧
              c.log.entries.back? = some d ∧ d.issue = issue) ∧
      (∀ stage c c', quiet c' = quiet c →
        quietResult (runStage (stage.action documents scripts) stage c') =
          quietResult (runStage (stage.action documents scripts) stage c)) ∧
      ∀ c', quiet c' = quiet { settings } →
        quietResult (compile documents scripts c') =
          quietResult (compile documents scripts { settings }) := by
  refine ⟨⟨?_, fun h => ?_⟩, fun stop c h => ?_, fun stage c c' h => ?_, fun c' h => ?_⟩
  · rintro ⟨model, c, h⟩
    rw [h]
    exact compile_ok_errors h
  · cases hrun : compile documents scripts { settings } with
    | ok model c => exact ⟨model, c, rfl⟩
    | error stop c =>
        obtain ⟨_, _, _, _, _, _, _, _, hholds⟩ := compile_error hrun
        rw [hrun] at h
        exact absurd h hholds.errors_ne_zero
  · obtain ⟨before, stage, after, c₀, hall, hbefore, hstop, hsettings, hholds⟩ := compile_error h
    refine ⟨before, stage, after, c₀, hall, hbefore, hstop, ?_, ?_, ?_⟩
    · rintro s errors rfl
      cases hholds with
      | aborted hone hlimit => exact ⟨rfl, rfl, hone, hsettings ▸ hlimit⟩
    · rintro rfl
      cases hholds with
      | tooManyErrors hlimit => exact hsettings ▸ hlimit
    · rintro issue rfl
      cases hholds with
      | fatal hlast hissue => exact ⟨_, _, _, rfl, hlast, hissue⟩
  · exact (blindRun_runStage (blindRun_action documents scripts stage) stage).congr h
  · exact (blindRun_compile documents scripts).congr h

/-- The definition `[Odd] interface Node { attribute Missing first; };`.  The extended attribute
is a warning, and the type is an error. -/
def missingType : Syntax.Document :=
  { name := "node.idl"
    definitions :=
      [.interface
        { name := "Node"
          annotations := [{ name := "Odd" }]
          members := [.attribute { name := "first", type := .named "Missing" }] }] }

theorem compile_outcome_missingType :
    ∃ c before after c₀, compile [missingType] [] { settings := {} } = .error (.aborted .link 1) c ∧
      Stage.all = before ++ .link :: after ∧
      (before.forM fun s => runStage (s.action [missingType] []) s) { settings := {} } =
        .ok () c₀ ∧
      runStage (Stage.link.action [missingType] []) .link c₀ = .error (.aborted .link 1) c ∧
      c.errors = 1 := by
  have hstops : (match compile [missingType] [] { settings := {} } with
      | .error (.aborted .link 1) _ => true
      | _ => false) = true := by decide +kernel
  split at hstops
  next c hrun =>
    obtain ⟨_, hstopped, _⟩ := compile_outcome [missingType] [] {}
    obtain ⟨before, stage, after, c₀, hall, hbefore, hstop, haborted, _⟩ := hstopped _ c hrun
    obtain ⟨rfl, herrors, _⟩ := haborted .link 1 rfl
    exact ⟨c, before, after, c₀, hrun, hall, hbefore, hstop, herrors.symm⟩
  next => exact absurd hstops Bool.false_ne_true

end IdlModel
