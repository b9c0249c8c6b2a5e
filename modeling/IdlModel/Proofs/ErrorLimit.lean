import IdlModel.Proofs.Outcomes
import IdlModel.Proofs.Readings
import IdlModel.Proofs.ScriptBlocks

/-!
# The limit of errors

A run that gives up does so at the first poll that finds more errors than the settings allow.

*Steps.*  Between two polls a stage declares a definition, folds a fragment into its base, visits
what an interface leads to, settles the promises of an entity, reads a script or runs an item of
it: `Stage.Step`.  A run that gives up has gone through steps that ended within the limit, and the
next one has passed it.

*One error.*  A definition and a fragment are one error at most.  An item of a script does nothing
any more as soon as the limit is passed.  So if such a step passes the limit, there is one error
too many.  A visit, the promises of an entity and the reader of a script report all they find.
-/

namespace IdlModel

open Relation (ReflTransGen)
open Syntax (Document)
open Compilation

/-! ## Steps -/

/-- A compilation with what the reader of a script reports. -/
def Script.Source.noted (source : Script.Source) (c : Compilation) : Compilation :=
  (Script.read source).2.foldl (fun c (issue, line) => c.report issue ⟨source.file, line⟩) c

/-- What a stage does between two polls, if it has started at `start`. -/
inductive Stage.Step (documents : List Document) (scripts : List Script.Source)
    (start : Compilation) : Stage → Compilation → Compilation → Prop
  | definition {document : Document} {d : Syntax.Definition} (hdocument : document ∈ documents)
      (hd : d ∈ document.definitions) (c : Compilation) :
      Step documents scripts start .extract c (endState (declareDefinition document.name d c))
  | taken (c : Compilation) : Step documents scripts start .merge c { c with fragments := {} }
  | dictionary {d : Dictionary} (h : d ∈ start.fragments.dictionaries) (c : Compilation) :
      Step documents scripts start .merge c (endState (mergeDictionary d c))
  | interface {d : Interface} (h : d ∈ start.fragments.interfaces) (c : Compilation) :
      Step documents scripts start .merge c (endState (mergeInterface d c))
  | mixin {d : Mixin} (h : d ∈ start.fragments.mixins) (c : Compilation) :
      Step documents scripts start .merge c (endState (mergeMixin d c))
  | inclusion {d : Inclusion} (h : d ∈ start.fragments.inclusions) (c : Compilation) :
      Step documents scripts start .merge c (endState (mergeInclusion d c))
  | visit {id : EntityId} (h : id ∈ start.table.idsOf .interface) (l : Linker) :
      Step documents scripts start .link l.compilation
        ((Linker.visit l.table.size id).run l).2.compilation
  | promises {id : EntityId} (h : id ∈ start.table.idsInUse) (c : Compilation) :
      Step documents scripts start .promise c (endState (settlePromises id c))
  | methods (c : Compilation) :
      Step documents scripts start .overrides c (endState (resolveMethodNames c))
  | reading {source : Script.Source} (h : source ∈ scripts) (c : Compilation) :
      Step documents scripts start .transform c (source.noted c)
  | item {source : Script.Source} {script : Script} {item : Script.Item} (h : source ∈ scripts)
      (hread : (Script.read source).1 = some script) (hitem : item ∈ script.items)
      (c : Compilation) :
      Step documents scripts start .transform c (c.applyItem script.file item)

/-! ## Runs of steps -/

section Paced

variable {α β : Type} {settings : Settings}
  {R : Compilation → Compilation → Prop} {c c₁ c' : Compilation}

/-- A step that ends within the limit. -/
def EndsWithin (settings : Settings) (R : Compilation → Compilation → Prop) (c c' : Compilation) :
    Prop :=
  R c c' ∧ c'.errors ≤ settings.errorLimit

/-- How a run ends that is made of steps.  If it finishes, all of them have ended within the
limit.  If it gives up, the last one has passed it, and no other. -/
def Paced (settings : Settings) (R : Compilation → Compilation → Prop) (c : Compilation) :
    EStateM.Result Stop Compilation α → Prop
  | .ok _ c' => c'.settings = settings ∧ c'.errors ≤ settings.errorLimit ∧
      ReflTransGen (EndsWithin settings R) c c'
  | .error .tooManyErrors c' => settings.errorLimit < c'.errors ∧
      ∃ c₁, ReflTransGen (EndsWithin settings R) c c₁ ∧ c₁.settings = settings ∧
        c₁.errors ≤ settings.errorLimit ∧ R c₁ c'
  | .error _ _ => True

/-- An action whose runs within the limit are made of steps. -/
def Steps (settings : Settings) (R : Compilation → Compilation → Prop) (action : CompileM α) :
    Prop :=
  ∀ c, c.settings = settings → c.errors ≤ settings.errorLimit → Paced settings R c (action c)

theorem Paced.prepend (h : ReflTransGen (EndsWithin settings R) c c₁)
    {r : EStateM.Result Stop Compilation α} (hr : Paced settings R c₁ r) :
    Paced settings R c r := by
  cases r with
  | ok a c' => exact ⟨hr.1, hr.2.1, h.trans hr.2.2⟩
  | error stop c' =>
      cases stop with
      | tooManyErrors =>
          obtain ⟨hover, c₂, hsteps, hrest⟩ := hr
          exact ⟨hover, c₂, h.trans hsteps, hrest⟩
      | aborted _ _ => trivial
      | fatal _ => trivial

/-- What is done behind such a run within the limit. -/
theorem Paced.bind {x : CompileM α} {f : α → CompileM β} (h : Paced settings R c (x c₁))
    (hf : ∀ a, Steps settings R (f a)) : Paced settings R c ((x >>= f) c₁) := by
  cases hrun : x c₁ with
  | ok a c₂ =>
      rw [hrun] at h
      rw [bind_run hrun]
      exact (hf a c₂ h.1 h.2.1).prepend h.2.2
  | error stop c₂ =>
      rw [hrun] at h
      rw [bind_error hrun]
      cases stop <;> exact h

namespace Steps

theorem pure (a : α) : Steps settings R (Pure.pure a) := fun _ hsettings hlimit =>
  ⟨hsettings, hlimit, .refl⟩

theorem bind {x : CompileM α} {f : α → CompileM β} (hx : Steps settings R x)
    (hf : ∀ a, Steps settings R (f a)) : Steps settings R (x >>= f) :=
  fun c hsettings hlimit => (hx c hsettings hlimit).bind hf

theorem forM {f : α → CompileM PUnit} {as : List α} (h : ∀ a ∈ as, Steps settings R (f a)) :
    Steps settings R (as.forM f) := by
  induction as with
  | nil => exact pure _
  | cons a as ih =>
    obtain ⟨hfirst, hrest⟩ := List.forall_mem_cons.mp h
    rw [List.forM_eq_forM, List.forM_cons, ← List.forM_eq_forM]
    exact hfirst.bind fun _ => ih hrest

/-- A poll within the limit is no step. -/
theorem checkLimit : Steps settings R checkLimit := by
  intro c hsettings hlimit
  have hover : c.isOverLimit = false := not_isOverLimit_iff.mpr (hsettings ▸ hlimit)
  rw [checkLimit_run, if_neg (by simp [hover])]
  exact ⟨hsettings, hlimit, .refl⟩

/-- A polled action is a single step. -/
theorem of_polled (stage : Stage) {action : CompileM α} (h : Polled settings stage action)
    (hR : ∀ c, R c (endState (action c))) : Steps settings R action := by
  intro c hsettings hlimit
  have hhonest := h c hsettings hlimit
  have hstep := hR c
  cases hrun : action c with
  | ok a c' =>
      rw [hrun] at hhonest hstep
      exact ⟨hhonest.1, hhonest.2, .single ⟨hstep, hhonest.2⟩⟩
  | error stop c' =>
      rw [hrun] at hhonest hstep
      obtain ⟨hsame, hholds⟩ := hhonest
      cases hholds with
      | tooManyErrors hover => exact ⟨hsame ▸ hover, c, .refl, hsettings, hlimit, hstep⟩
      | aborted _ _ => trivial
      | fatal _ _ => trivial

end Steps

/-- A poll behind a step. -/
theorem paced_checkLimit (hsettings : c.settings = settings)
    (hlimit : c.errors ≤ settings.errorLimit) (hstep : R c c₁) (hsame : c₁.settings = settings) :
    Paced settings R c (checkLimit c₁) := by
  rw [checkLimit_run]
  cases hover : c₁.isOverLimit with
  | true => exact ⟨hsame ▸ isOverLimit_iff.mp hover, c, .refl, hsettings, hlimit, hstep⟩
  | false =>
      have hwithin : c₁.errors ≤ settings.errorLimit := hsame ▸ not_isOverLimit_iff.mp hover
      exact ⟨hsame, hwithin, .single ⟨hstep, hwithin⟩⟩

/-- Changes with a poll before each of them and behind the last one, all of it behind a step. -/
theorem paced_changes {change : α → Compilation → Compilation} {as : List α}
    (hchange : ∀ a ∈ as, ∀ c, R c (change a c) ∧ (change a c).settings = c.settings)
    (hsettings : c.settings = settings) (hlimit : c.errors ≤ settings.errorLimit)
    (hstep : R c c₁) (hsame : c₁.settings = settings) :
    Paced settings R c
      ((do
        as.forM fun a => do
          checkLimit
          modify (change a)
        checkLimit : CompileM Unit) c₁) := by
  induction as generalizing c c₁ with
  | nil => exact paced_checkLimit hsettings hlimit hstep hsame
  | cons a as ih =>
    obtain ⟨hfirst, hrest⟩ := List.forall_mem_cons.mp hchange
    rw [List.forM_eq_forM, List.forM_cons, ← List.forM_eq_forM, bind_assoc, bind_assoc]
    have hpoll := paced_checkLimit hsettings hlimit hstep hsame
    cases hrun : checkLimit c₁ with
    | ok u c₂ =>
        obtain rfl := checkLimit_ok hrun
        rw [hrun] at hpoll
        rw [bind_run hrun]
        exact (ih hrest hpoll.1 hpoll.2.1 (hfirst c₂).1 ((hfirst c₂).2.trans hpoll.1)).prepend
          hpoll.2.2
    | error stop c₂ =>
        rw [hrun] at hpoll
        rw [bind_error hrun]
        cases stop <;> exact hpoll

end Paced

/-! ## Stages -/

section Stages

variable {documents : List Document} {scripts : List Script.Source} {settings : Settings}
  {start : Compilation}

/-- From within the limit an action ends as steps of the stage do. -/
def Stage.IsPaced (documents : List Document) (scripts : List Script.Source) (stage : Stage) :
    Prop :=
  ∀ start settings, start.settings = settings → start.errors ≤ settings.errorLimit →
    Paced settings (stage.Step documents scripts start) start
      (stage.action documents scripts start)

theorem isPaced_extract : Stage.extract.IsPaced documents scripts := fun start _ =>
  Steps.forM (fun _ hdocument => .forM fun _ hd =>
    .of_polled .extract (polled_declareDefinition _ _) (.definition hdocument hd)) start

theorem isPaced_merge : Stage.merge.IsPaced documents scripts := by
  intro start settings
  have htake : Steps settings (Stage.merge.Step documents scripts start)
      (modify ({ · with fragments := {} })) :=
    .of_polled .merge (.silent (fun _ => rfl) fun _ => rfl) .taken
  have hrest : Steps settings (Stage.merge.Step documents scripts start) (do
      start.fragments.dictionaries.forM mergeDictionary
      start.fragments.interfaces.forM mergeInterface
      start.fragments.mixins.forM mergeMixin
      start.fragments.inclusions.forM mergeInclusion) := by
    refine (Steps.forM fun d hd => ?_).bind fun _ => (Steps.forM fun d hd => ?_).bind fun _ =>
      (Steps.forM fun d hd => ?_).bind fun _ => Steps.forM fun d hd => ?_
    · exact .of_polled .merge (.get_bind fun _ => polled_mergeFound _ _ _) (.dictionary hd)
    · exact .of_polled .merge (.get_bind fun _ => polled_mergeFound _ _ _) (.interface hd)
    · exact .of_polled .merge
        (.get_bind fun _ => (polled_mergeFound _ _ _).bind fun _ => .checkLimit) (.mixin hd)
    · exact .of_polled .merge (.get_bind fun _ => polled_mergeFound _ _ _) (.inclusion hd)
  exact htake.bind (fun _ => hrest) start

/-- A run of the linker, as a run of the compilation that is linked. -/
def linked : EStateM.Result Stop Linker Unit → EStateM.Result Stop Compilation Unit
  | .ok u l => .ok u l.compilation
  | .error stop l => .error stop l.compilation

/-- The linker polls behind every entity that it is called for. -/
theorem paced_links {R : Compilation → Compilation → Prop} {ids : List EntityId}
    (hR : ∀ id ∈ ids, ∀ l : Linker,
      R l.compilation ((Linker.visit l.table.size id).run l).2.compilation)
    (l : Linker) (hsettings : l.compilation.settings = settings)
    (hlimit : l.compilation.errors ≤ settings.errorLimit) :
    Paced settings R l.compilation (linked (ids.forM Linker.link l)) := by
  induction ids generalizing l with
  | nil => exact ⟨hsettings, hlimit, .refl⟩
  | cons id ids ih =>
    obtain ⟨hfirst, hrest⟩ := List.forall_mem_cons.mp hR
    have hvisit := (Linker.spans_settings.tracks.visit l.table.size id l).trans hsettings
    have hpoll := paced_checkLimit hsettings hlimit (hfirst l) hvisit
    have hlink := Linker.link_eq id l
    rw [checkLimit_run] at hpoll
    dsimp only at hlink
    split at hlink
    next hover =>
      rw [if_pos hover] at hpoll
      rw [forM_cons_error hlink]
      exact hpoll
    next hover =>
      rw [if_neg hover] at hpoll
      rw [forM_cons_run hlink]
      exact (ih hrest _ hvisit hpoll.2.1).prepend hpoll.2.2

theorem isPaced_link : Stage.link.IsPaced documents scripts := by
  intro start settings hsettings hlimit
  have hlinks := paced_links (R := Stage.link.Step documents scripts start)
    (fun id hid => .visit hid) { compilation := start } hsettings hlimit
  have hrun : Stage.link.action documents scripts start =
      linked ((start.table.idsOf .interface).forM Linker.link { compilation := start }) := by
    show withLinker ((start.table.idsOf .interface).forM Linker.link) start = _
    unfold withLinker
    cases (start.table.idsOf .interface).forM Linker.link { compilation := start } <;> rfl
  rw [hrun]
  exact hlinks

theorem isPaced_promise : Stage.promise.IsPaced documents scripts := fun start _ =>
  Steps.forM (fun id hid => .of_polled .promise (polled_settlePromises id) (.promises hid)) start

theorem isPaced_overrides : Stage.overrides.IsPaced documents scripts := fun start _ =>
  Steps.of_polled .overrides polled_resolveMethodNames .methods start

/-- A source is read before its script is run. -/
theorem Script.Source.run_eq (source : Script.Source) (c : Compilation) :
    source.run c =
      (match (Script.read source).1 with
        | some script => do script.run; checkLimit
        | none => checkLimit : CompileM Unit) (source.noted c) := by
  unfold Script.Source.run Script.Source.noted
  generalize Script.read source = r
  obtain ⟨script, reports⟩ := r
  cases script <;> rfl

theorem isPaced_transform : Stage.transform.IsPaced documents scripts := by
  intro start settings
  refine Steps.forM (fun source hsource c hsettings hlimit => ?_) start
  have hreading : Stage.transform.Step documents scripts start c (source.noted c) :=
    .reading hsource c
  have hnoted : (source.noted c).settings = settings :=
    (edits_settings.reports source.file _ c).trans hsettings
  rw [source.run_eq]
  cases hread : (Script.read source).1 with
  | none => exact paced_checkLimit hsettings hlimit hreading hnoted
  | some script =>
      have hitems : Paced settings (Stage.transform.Step documents scripts start) c
          (script.run (source.noted c)) := by
        unfold Script.run
        exact paced_changes (fun item hitem c => ⟨.item hsource hread hitem c,
          edits_settings.applyItemBy Pattern.accepts script.file item c⟩)
          hsettings hlimit hreading hnoted
      exact hitems.bind fun _ => .checkLimit

/-- Every stage takes one step after the other, as long as it is within the limit. -/
theorem isPaced (stage : Stage) : stage.IsPaced documents scripts := by
  cases stage with
  | extract => exact isPaced_extract
  | merge => exact isPaced_merge
  | link => exact isPaced_link
  | promise => exact isPaced_promise
  | overrides => exact isPaced_overrides
  | transform => exact isPaced_transform

end Stages

/-! ## Steps of one error -/

section OneError

variable {documents : List Document} {scripts : List Script.Source} {start c c' : Compilation}
  {file : String}

theorem errors_report_le (c : Compilation) (issue : Issue) (at_ : Location) :
    (c.report issue at_).errors ≤ c.errors + 1 := by
  rw [errors_report]
  split <;> omega

theorem errors_declareDefinition_le (file : String) (d : Syntax.Definition) (c : Compilation) :
    (endState (declareDefinition file d c)).errors ≤ c.errors + 1 := by
  have hread : ∀ r, read? c.settings file d = some r →
      (endState (declareDefinition file d c)).errors ≤ c.errors + 1 := fun r hr => by
    have hend : endState (declareDefinition file d c) = r.on c := by
      rw [declareDefinition_run hr]
      split <;> rfl
    rw [hend, Reading.errors_on hr]
    split <;> omega
  cases d with
  | implementation d => exact errors_report_le c _ _
  | _ => exact hread _ rfl

theorem errors_mergeFound_le {α : Type} (found : Except Issue α) (source : Location)
    (change : α → SymbolTable → SymbolTable) (c : Compilation) :
    (endState (mergeFound found source change c)).errors ≤ c.errors + 1 := by
  cases found with
  | ok x => exact Nat.le_succ _
  | error issue =>
      have hend : endState (mergeFound (.error issue : Except Issue α) source change c) =
          c.report issue source := endState_checkLimit _
      rw [hend]
      exact errors_report_le c issue source

theorem endState_bind_checkLimit (x : CompileM Unit) (c : Compilation) :
    endState ((do x; checkLimit : CompileM Unit) c) = endState (x c) := by
  cases hrun : x c with
  | ok u c₁ =>
      rw [bind_run hrun, endState_checkLimit]
      rfl
  | error stop c₁ => rw [bind_error hrun]

/-- A definition and a fragment are one error at most. -/
theorem Stage.Step.errors_le {stage : Stage} (h : stage.Step documents scripts start c c')
    (hstage : stage = .extract ∨ stage = .merge) : c'.errors ≤ c.errors + 1 := by
  cases h with
  | definition _ _ => exact errors_declareDefinition_le ..
  | taken => exact Nat.le_succ _
  | @dictionary d _ =>
    exact errors_mergeFound_le (c.table.baseOf d.identity.idl .dictionary) d.identity.source
      (fun id t => t.modify id (Entity.addFields d.members)) c
  | @interface d _ =>
    exact errors_mergeFound_le (c.table.baseOf d.identity.idl .interface) d.identity.source
      (fun id t => t.modify id (Entity.addFragment d)) c
  | @mixin d _ =>
    show (endState ((do
      mergeFound (c.table.baseMixin d.identity.idl) d.identity.source
        fun i t => t.extendMixin i d.members
      checkLimit : CompileM Unit) c)).errors ≤ _
    rw [endState_bind_checkLimit]
    exact errors_mergeFound_le ..
  | @inclusion d _ =>
    exact errors_mergeFound_le (c.table.inclusionOf d) d.source
      (fun found t => t.modify found.1 (Entity.addMembers found.2.members)) c
  | _ => rcases hstage with hstage | hstage <;> cases hstage

/-! ### Items of scripts -/

/-- No more than one error is over the limit, if it was so before. -/
def Creeps (c c' : Compilation) : Prop :=
  c'.settings = c.settings ∧
    (c.errors ≤ c.settings.errorLimit + 1 → c'.errors ≤ c'.settings.errorLimit + 1)

theorem Creeps.refl (c : Compilation) : Creeps c c := ⟨rfl, id⟩

theorem Creeps.trans ⦃c c' c'' : Compilation⦄ (h : Creeps c c') (h' : Creeps c' c'') :
    Creeps c c'' :=
  ⟨h'.1.trans h.1, fun hc => h'.2 (h.2 hc)⟩

/-- The same number of errors. -/
theorem Creeps.of_errors_eq (hsettings : c'.settings = c.settings)
    (herrors : c'.errors = c.errors) :
    Creeps c c' :=
  ⟨hsettings, fun h => by rwa [herrors, hsettings]⟩

/-- One error is reported within the limit. -/
theorem creeps_report (h : ¬c.isOverLimit = true) (issue : Issue) (at_ : Location) :
    Creeps c (c.report issue at_) := by
  have hlimit : c.errors ≤ c.settings.errorLimit :=
    not_isOverLimit_iff.mp (by simpa using h)
  exact ⟨rfl, fun _ => Nat.le_trans (errors_report_le c issue at_) (Nat.succ_le_succ hlimit)⟩

theorem creeps_editCopy (file : String) (actions : List Script.Action) (e : Entity)
    (c : Compilation) : Creeps c (editCopy file actions e c).1 := by
  induction actions generalizing e c with
  | nil => exact .refl c
  | cons action rest ih =>
    unfold editCopy
    split
    next => exact .refl c
    next hlimit =>
      split
      next => exact ih e c
      next =>
        split
        next => exact ih _ c
        next => exact (creeps_report hlimit _ _).trans (ih e _)

theorem creeps_editOne (file : String) (s : Script.Selection) (line : Nat) (c : Compilation)
    (id : EntityId) : Creeps c (c.editOne file s line id) := by
  unfold editOne
  split
  next => exact .refl c
  next hlimit =>
    split
    next => exact .refl c
    next =>
      split
      next => exact .of_errors_eq rfl rfl
      next => exact creeps_report hlimit _ _

theorem creeps_applySelection (file : String) (s : Script.Selection) (line : Nat)
    (c : Compilation) : Creeps c (c.applySelection file s line) :=
  foldl_leads .refl Creeps.trans (fun id _ c => creeps_editOne file s line c id) c

theorem creeps_applySelections (file : String) (actions : List Script.Action) (c : Compilation) :
    Creeps c (c.applySelections file actions) := by
  refine foldl_leads .refl Creeps.trans (fun action _ c => ?_) c
  split
  next s _ =>
    split
    · exact .refl c
    · exact creeps_applySelection file s action.line c
  next => exact .refl c

theorem creeps_applyBlock (hlimit : ¬c.isOverLimit = true) (file : String) (b : Script.Block) :
    Creeps c (c.applyBlock file b) := by
  unfold applyBlock
  split
  next => exact creeps_report hlimit _ _
  next id _ =>
    split
    next => exact .refl c
    next e _ =>
      have hcopy := creeps_editCopy file b.actions e c
      split
      next hrun =>
        rw [hrun] at hcopy
        exact hcopy
      next hrun =>
        rw [hrun] at hcopy
        exact (hcopy.trans (.of_errors_eq (settings_commit ..) (errors_commit ..))).trans
          (creeps_applySelections file b.actions _)

/-- An item of a script stops at the first error over the limit. -/
theorem creeps_applyItem (hlimit : ¬c.isOverLimit = true) (file : String) (item : Script.Item) :
    Creeps c (c.applyItem file item) := by
  cases item with
  | block b => exact creeps_applyBlock hlimit file b
  | global s line => exact creeps_applySelection file s line c

end OneError

/-! ## Giving up -/

theorem runStage_tooManyErrors {action : CompileM Unit} {stage : Stage} {c c' : Compilation}
    (h : runStage action stage c = .error .tooManyErrors c') :
    action c = .error .tooManyErrors c' := by
  cases hrun : action c with
  | ok u c₁ =>
      unfold runStage at h
      rw [bind_run hrun] at h
      change (if c₁.errors ≠ 0 then throw (.aborted stage c₁.errors) else pure () : CompileM Unit)
        c₁ = _ at h
      split at h <;> cases h
  | error stop c₁ =>
      unfold runStage at h
      rw [bind_error hrun] at h
      cases h
      rfl

section Compile

variable {documents : List Document} {scripts : List Script.Source} {settings : Settings}
  {c' : Compilation}

/-- A run that gives up does so at the first poll that finds more errors than the settings allow.

It gives up in one stage, and those before it have finished without an error.  In that stage it
has gone through steps that have ended within the limit, and the next one has passed it.  If the
limit is passed by a definition, a fragment or an item of a script, there is one error too many.
Else it is passed by the visit of what an interface leads to, by the promises of an entity or by
the reader of a script. -/
theorem compile_gives_up (h : compile documents scripts { settings } = .error .tooManyErrors c') :
    ∃ before stage after start c,
      Stage.all = before ++ stage :: after ∧
      (before.forM fun s => runStage (s.action documents scripts) s) { settings } =
        .ok () start ∧
      start.errors = 0 ∧
      ReflTransGen (EndsWithin settings (stage.Step documents scripts start)) start c ∧
      c.errors ≤ settings.errorLimit ∧
      stage.Step documents scripts start c c' ∧
      settings.errorLimit < c'.errors ∧
      (stage = .extract ∨ stage = .merge → c'.errors = settings.errorLimit + 1) ∧
      (stage = .transform → c'.errors = settings.errorLimit + 1 ∨
        ∃ source ∈ scripts, c' = source.noted c) ∧
      stage ≠ .overrides := by
  obtain ⟨before, stage, after, start, hall, hbefore, hstop, -, -⟩ := compile_error h
  have hclean : Keeps (fun c : Compilation => c.errors = 0 ∧ c.settings = settings)
      (before.forM fun s => runStage (s.action documents scripts) s) :=
    .forM fun s _ c hc u c₁ hrun => by
      have hlimit : c.errors ≤ settings.errorLimit := hc.1 ▸ Nat.zero_le _
      have hhonest := (polled_action documents scripts s).runStage c hc.2 hlimit
      rw [hrun] at hhonest
      exact ⟨(runStage_ok.mp hrun).2, hhonest.1⟩
  obtain ⟨hzero, hsettings⟩ := hclean _ ⟨rfl, rfl⟩ _ _ hbefore
  have hpaced : Paced settings (stage.Step documents scripts start) start
      (stage.action documents scripts start) :=
    isPaced stage start settings hsettings (hzero ▸ Nat.zero_le _)
  rw [runStage_tooManyErrors hstop] at hpaced
  obtain ⟨hover, c, hsteps, hsame, hlimit, hstep⟩ := hpaced
  refine ⟨before, stage, after, start, c, hall, hbefore, hzero, hsteps, hlimit, hstep, hover,
    fun hstage => ?_, fun hstage => ?_, fun hstage => ?_⟩
  · have hle := hstep.errors_le hstage
    omega
  · subst hstage
    cases hstep with
    | reading hsource => exact .inr ⟨_, hsource, rfl⟩
    | item =>
      refine .inl (Nat.le_antisymm ?_ hover)
      have hwithin : ¬c.isOverLimit = true := by
        rw [isOverLimit_iff, hsame]
        exact Nat.not_lt.mpr hlimit
      obtain ⟨hkept, hcreeps⟩ := creeps_applyItem hwithin _ _
      rw [hkept, hsame] at hcreeps
      exact hcreeps (Nat.le_succ_of_le hlimit)
  · subst hstage
    cases hstep
    rw [resolveMethodNames, endState_bind_checkLimit] at hover
    exact absurd hover (Nat.not_lt.mpr hlimit)

end Compile

/-- The definition `interface Node { attribute Missing first; attribute Missing second; };`. -/
def twoMissingTypes : Document :=
  { name := "node.idl"
    definitions :=
      [.interface
        { name := "Node"
          members :=
            [.attribute { name := "first", type := .named "Missing" },
              .attribute { name := "second", type := .named "Missing" }] }] }

/-- No error is allowed, and both types of one interface are reported before the next poll. -/
theorem compile_twoMissingTypes :
    ∃ c', compile [twoMissingTypes] [] { settings := { errorLimit := 0 } } =
      .error .tooManyErrors c' ∧ c'.errors = 2 := by
  have hstops : (match compile [twoMissingTypes] [] { settings := { errorLimit := 0 } } with
      | .error .tooManyErrors c' => c'.errors == 2
      | _ => false) = true := by decide +kernel
  split at hstops
  next c' hrun => exact ⟨c', hrun, beq_iff_eq.mp hstops⟩
  next => exact absurd hstops Bool.false_ne_true

/-- So not every run that gives up has one error too many. -/
theorem exists_two_errors_over_limit :
    ¬∀ (documents : List Document) (scripts : List Script.Source) (settings : Settings)
      (c' : Compilation), compile documents scripts { settings } = .error .tooManyErrors c' →
        c'.errors = settings.errorLimit + 1 := by
  intro h
  obtain ⟨c', hrun, htwo⟩ := compile_twoMissingTypes
  cases htwo.symm.trans (h _ _ _ c' hrun)

/-- There it is no definition, no fragment and no script that passes the limit. -/
theorem compile_gives_up_twoMissingTypes :
    ∃ (stage : Stage) (c c' start : Compilation),
      compile [twoMissingTypes] [] { settings := { errorLimit := 0 } } =
        .error .tooManyErrors c' ∧
      (stage = .link ∨ stage = .promise) ∧ stage.Step [twoMissingTypes] [] start c c' ∧
      c.errors = 0 ∧ c'.errors = 2 := by
  obtain ⟨c', hrun, htwo⟩ := compile_twoMissingTypes
  obtain ⟨before, stage, after, start, c, hall, hbefore, hzero, hsteps, hlimit, hstep, hover, hone,
    hscript, hnames⟩ := compile_gives_up hrun
  refine ⟨stage, c, c', start, hrun, ?_, hstep, Nat.le_zero.mp hlimit, htwo⟩
  cases stage with
  | extract => cases htwo.symm.trans (hone (.inl rfl))
  | merge => cases htwo.symm.trans (hone (.inr rfl))
  | link => exact .inl rfl
  | promise => exact .inr rfl
  | overrides => exact absurd rfl hnames
  | transform =>
      rcases hscript rfl with hover | ⟨_, hmem, _⟩
      · cases htwo.symm.trans hover
      · cases hmem

end IdlModel
