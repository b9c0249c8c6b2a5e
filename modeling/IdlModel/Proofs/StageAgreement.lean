import IdlModel.Proofs.Agreement
import IdlModel.Proofs.PromiseRun
import IdlModel.Proofs.ScriptBlocks

/-!
# Agreement of the stages

No stage of a run decides anything by its log, but for the number of errors.  One lemma for each
action of each stage says that it agrees on compilations that are alike, and
`agreesRun_compile` says it of a whole run.

The actions see the table, the settings and the fragments, which are the same, and of the log only
how many errors it has.
-/

namespace IdlModel

variable {R : Log → Log → Prop} (hR : Log.Unseen R)
include hR

namespace Compilation

variable {α : Type} {c c' : Compilation} {file : String}

/-! ## Declarations -/

theorem keepsAlike_report (issue : Issue) (at_ : Location) : KeepsAlike R (·.report issue at_) :=
  fun _ _ h => h.report hR issue at_

theorem keepsAlike_reportAll (issues : List LocatedIssue) : KeepsAlike R (·.reportAll issues) := by
  refine KeepsAlike.foldl (f := fun c (issue : LocatedIssue) => c.report issue.1 issue.2) ?_ issues
  exact fun issue => keepsAlike_report hR issue.1 issue.2

theorem keepsAlike_declared (name : String) (at_ : Location)
    (attempt : SymbolTable → Except Location SymbolTable) :
    KeepsAlike R fun c => c.declared name at_ (attempt c.table) := by
  intro c c' h
  dsimp only
  rw [h.table_eq]
  cases attempt c.table with
  | ok table => exact h.withTable table
  | error previous => exact h.report hR _ at_

theorem keepsAlike_declareEntity (e : Entity) : KeepsAlike R (·.declareEntity e) :=
  keepsAlike_declared hR e.key e.source (·.insert e)

theorem keepsAlike_declareEnumeration (file : String) (d : Syntax.EnumerationDecl) :
    KeepsAlike R (·.declareEnumeration file d) := by
  have hdeclare : KeepsAlike R fun c => c.declareEntity (.enumeration
      { identity := .ofIdl d.name (c.packageOf file) ⟨file, d.line.toNat⟩
        values := (splitRepeated [] d.values).1 }) := by
    intro c c' h
    dsimp only
    rw [h.packageOf_eq]
    exact keepsAlike_declareEntity hR _ h
  exact hdeclare.comp ((keepsAlike_reportAll hR _).comp (keepsAlike_reportAll hR _))

theorem keepsAlike_declareInterface (file : String) (d : Syntax.InterfaceDecl) :
    KeepsAlike R (·.declareInterface file d) := by
  intro c c' h
  simp only [declareInterface, h.packageOf_eq]
  generalize interfaceOf file (c.packageOf file) d = said
  obtain ⟨decl, reports⟩ := said
  have hreports := keepsAlike_reportAll hR reports h
  dsimp only at hreports ⊢
  split
  · exact hreports.report hR _ _
  · split
    · exact hreports.withFragments fun fragments =>
        { fragments with interfaces := fragments.interfaces ++ [decl] }
    · exact keepsAlike_declareEntity hR _ hreports

theorem keepsAlike_declareMixin (file : String) (d : Syntax.MixinDecl) :
    KeepsAlike R (·.declareMixin file d) := by
  have hdeclare : ∀ decl : String → Mixin, KeepsAlike R fun c =>
      if d.isPartial then
        { c with fragments :=
          { c.fragments with mixins := c.fragments.mixins ++ [decl (c.packageOf file)] } }
      else
        c.declared d.name ⟨file, d.line.toNat⟩ (c.table.insertMixin (decl (c.packageOf file))) := by
    intro decl c c' h
    dsimp only
    rw [h.packageOf_eq]
    split
    · exact h.withFragments fun fragments =>
        { fragments with mixins := fragments.mixins ++ [decl (c.packageOf file)] }
    · exact keepsAlike_declared hR _ _ (·.insertMixin (decl (c.packageOf file))) h
  exact (hdeclare fun package => { identity := .ofIdl d.name package _, members := _ }).comp
    (keepsAlike_reportAll hR _)

theorem keepsAlike_declareDictionary (file : String) (d : Syntax.DictionaryDecl) :
    KeepsAlike R (·.declareDictionary file d) := by
  have hdeclare : ∀ decl : String → Dictionary, KeepsAlike R fun c =>
      if d.isPartial then
        { c with fragments :=
          { c.fragments with
            dictionaries := c.fragments.dictionaries ++ [decl (c.packageOf file)] } }
      else c.declareEntity (.dictionary (decl (c.packageOf file))) := by
    intro decl c c' h
    dsimp only
    rw [h.packageOf_eq]
    split
    · exact h.withFragments fun fragments =>
        { fragments with dictionaries := fragments.dictionaries ++ [decl (c.packageOf file)] }
    · exact keepsAlike_declareEntity hR _ h
  exact (hdeclare fun package =>
    { identity := .ofIdl d.name package _, members := _, parent := _ }).comp
    (keepsAlike_reportAll hR _)

theorem keepsAlike_declareCallback (file : String) (d : Syntax.CallbackDecl) :
    KeepsAlike R (·.declareCallback file d) := by
  have hdeclare : KeepsAlike R fun c => c.declareEntity (.callback
      { identity := .ofIdl d.name (c.packageOf file) ⟨file, d.line.toNat⟩
        result := .ofExpr d.returnType
        params := parametersOf d.args }) := by
    intro c c' h
    dsimp only
    rw [h.packageOf_eq]
    exact keepsAlike_declareEntity hR _ h
  exact hdeclare.comp (keepsAlike_reportAll hR _)

theorem keepsAlike_declareTypedef (file : String) (d : Syntax.TypedefDecl) :
    KeepsAlike R (·.declareTypedef file d) :=
  keepsAlike_declared hR d.name _ (·.insertTypedef _)

omit hR in
theorem keepsAlike_declareInclusion (file : String) (d : Syntax.IncludesDecl) :
    KeepsAlike R (·.declareInclusion file d) := fun _ _ h =>
  h.withFragments fun fragments =>
    { fragments with inclusions := fragments.inclusions ++
      [{ target := d.target, mixin := d.mixin, source := ⟨file, d.line.toNat⟩ }] }

end Compilation

open Compilation

/-- A change that keeps compilations alike, and then a poll. -/
theorem agreesRun_polled {f : Compilation → Compilation} (hf : KeepsAlike R f) :
    AgreesRun (Alike R) (do modify f; checkLimit : CompileM Unit) :=
  (AgreesRun.update hf).bind fun _ => agreesRun_checkLimit hR

theorem agreesRun_declareDefinition (file : String) (d : Syntax.Definition) :
    AgreesRun (Alike R) (declareDefinition file d) := by
  cases d with
  | enumeration d => exact agreesRun_polled hR (keepsAlike_declareEnumeration hR file d)
  | interface d => exact agreesRun_polled hR (keepsAlike_declareInterface hR file d)
  | mixin d => exact agreesRun_polled hR (keepsAlike_declareMixin hR file d)
  | dictionary d => exact agreesRun_polled hR (keepsAlike_declareDictionary hR file d)
  | includes d => exact .update (keepsAlike_declareInclusion file d)
  | callback d => exact agreesRun_polled hR (keepsAlike_declareCallback hR file d)
  | typedef d => exact agreesRun_polled hR (keepsAlike_declareTypedef hR file d)
  | implementation d =>
      exact (AgreesRun.update (keepsAlike_report hR _ _)).bind fun _ => .throw _

/-! ## Fragments -/

theorem agreesRun_mergeFound {α : Type} (found : Except Issue α) (source : Location)
    (change : α → SymbolTable → SymbolTable) :
    AgreesRun (Alike R) (mergeFound found source change) := by
  cases found with
  | ok x =>
      refine .update fun c c' h => ?_
      rw [h.table_eq]
      exact h.withTable _
  | error issue => exact agreesRun_polled hR (keepsAlike_report hR issue source)

theorem agreesRun_mergeFragments : AgreesRun (Alike R) mergeFragments := by
  refine .get_bind (fun _ _ h => by cases h; rfl) fun c => ?_
  have htake : AgreesRun (Alike R) (modify ({ · with fragments := {} }) : CompileM Unit) :=
    .update fun _ _ h => h.withFragments fun _ => {}
  refine htake.bind fun _ => ?_
  refine (AgreesRun.forM fun d _ => ?_).bind fun _ => (AgreesRun.forM fun d _ => ?_).bind fun _ =>
    (AgreesRun.forM fun d _ => ?_).bind fun _ => AgreesRun.forM fun d _ => ?_
  · exact .get_bind (fun _ _ h => by rw [h.table_eq]) fun _ => agreesRun_mergeFound hR _ _ _
  · exact .get_bind (fun _ _ h => by rw [h.table_eq]) fun _ => agreesRun_mergeFound hR _ _ _
  · refine .get_bind (fun _ _ h => by rw [h.table_eq]) fun _ => ?_
    exact (agreesRun_mergeFound hR _ _ _).bind fun _ => agreesRun_checkLimit hR
  · exact .get_bind (fun _ _ h => by rw [h.table_eq]) fun _ => agreesRun_mergeFound hR _ _ _

/-! ## Links -/

namespace Linker

variable {α : Type} {visit : EntityId → LinkM Unit} {l l' : Linker}

/-- Linkers that are the same but for the logs of their compilations, which are related. -/
inductive Alike (R : Log → Log → Prop) (l : Linker) : Linker → Prop
  | mk {log : Log} (h : R l.compilation.log log) :
      Alike R l { l with compilation := { l.compilation with log } }

omit hR

theorem alike_iff : Alike R l l' ↔
    Compilation.Alike R l.compilation l'.compilation ∧ l'.visits = l.visits := by
  constructor
  · rintro ⟨h⟩
    exact ⟨.mk h, rfl⟩
  · obtain ⟨c', visits'⟩ := l'
    rintro ⟨⟨h⟩, rfl⟩
    exact .mk h

theorem Alike.withTable (h : Alike R l l') (table : SymbolTable) :
    Alike R (l.withTable table) (l'.withTable table) := by
  cases h with
  | mk h => exact .mk h

theorem Alike.table_eq (h : Alike R l l') : l'.table = l.table := by
  cases h
  rfl

/-- A change of the table that reads the table only. -/
theorem agrees_withTable (f : SymbolTable → SymbolTable) :
    Agrees (Alike R) (modify fun l => l.withTable (f l.table) : LinkM Unit) := by
  refine .update fun l l' h => ?_
  rw [h.table_eq]
  exact h.withTable _

include hR

theorem agrees_report (issue : Issue) (at_ : Location) : Agrees (Alike R) (report issue at_) :=
  .update fun _ _ h => by
    obtain ⟨hcompilation, hvisits⟩ := alike_iff.mp h
    exact alike_iff.mpr ⟨hcompilation.report hR issue at_, hvisits⟩

theorem agrees_reportUnresolved (name : String) (at_ : Location) :
    Agrees (Alike R) (reportUnresolved name at_) :=
  .update fun _ _ h => by
    obtain ⟨hcompilation, hvisits⟩ := alike_iff.mp h
    rw [h.table_eq]
    exact alike_iff.mpr ⟨hcompilation.add hR _, hvisits⟩

theorem agrees_resolveParent (e : Entity) (p : TypeRef) :
    Agrees (Alike R) (resolveParent e p) := by
  unfold resolveParent
  split
  next name =>
    refine .get_bind (fun _ _ h => by rw [h.table_eq]) fun l => ?_
    dsimp only
    split
    next => exact (agrees_reportUnresolved hR name _).bind fun _ => .pure _
    next symbol _ =>
      split
      next => exact .pure _
      next => exact (agrees_report hR _ _).bind fun _ => .pure _
  next => exact .pure _

theorem agrees_cutCycle (e : Entity) (id : EntityId) (p : Option EntityId) :
    Agrees (Alike R) (cutCycle e id p) := by
  unfold cutCycle
  split
  next => exact .pure _
  next =>
    refine .get_bind (fun _ _ h => by rw [h.table_eq]) fun l => ?_
    split
    · exact (agrees_report hR _ _).bind fun _ => .pure _
    · exact .pure _

theorem agrees_linkParent (id : EntityId) : Agrees (Alike R) (linkParent id) := by
  unfold linkParent
  refine .get_bind (fun _ _ h => by rw [h.table_eq]) fun l => ?_
  split
  next => exact .pure _
  next e _ =>
    split
    next => exact .pure _
    next p _ =>
      refine (agrees_resolveParent hR e p).bind fun p =>
        (agrees_cutCycle hR e id p).bind fun p => ?_
      exact (agrees_withTable fun t => t.modify id fun e => (e.setParent p).setInherited
        ((p.map t.lineageFields).getD [])).bind fun _ => .pure _

theorem agrees_checkGeneric (at_ : Location) (t : TypeRef) :
    Agrees (Alike R) (checkGeneric at_ t) := by
  unfold checkGeneric
  split
  next =>
    split
    · exact .pure _
    · exact agrees_report hR _ _
  next => exact .pure _

theorem agrees_resolveName (hvisit : ∀ id, Agrees (Alike R) (visit id)) (at_ : Location)
    {expand : String → Nat → Typedef → LinkM TypeRef}
    (hexpand : ∀ name i d, Agrees (Alike R) (expand name i d)) (name : String) :
    Agrees (Alike R) (resolveName visit at_ expand name) := by
  unfold resolveName
  refine .get_bind (fun _ _ h => by rw [h.table_eq]) fun l => ?_
  dsimp only
  split
  next id _ =>
    refine (hvisit id).bind fun _ => .get_bind (fun _ _ h => by rw [h.table_eq]) fun l => ?_
    split
    · exact .pure _
    · exact .pure _
  next =>
    split
    · exact hexpand _ _ _
    · exact .pure _
  next => exact (agrees_reportUnresolved hR _ _).bind fun _ => .pure _

omit hR in
theorem agrees_resolvePart (hvisit : ∀ id, Agrees (Alike R) (visit id))
    {onName : String → LinkM TypeRef} (honName : ∀ name, Agrees (Alike R) (onName name))
    (t : TypeRef) : Agrees (Alike R) (resolvePart visit onName t) := by
  unfold resolvePart
  split
  next => exact (hvisit _).bind fun _ => .pure _
  next => exact honName _
  next => exact .pure _

omit hR in
theorem agrees_memoize (index : Nat) (expanded : TypeRef) :
    Agrees (Alike R) (memoize index expanded) := by
  unfold memoize
  split
  · exact .pure _
  · exact (agrees_withTable (·.setTypedef index expanded)).bind fun _ => .pure _

theorem agrees_resolve (hvisit : ∀ id, Agrees (Alike R) (visit id)) (at_ : Location)
    (budget : Nat) (opened : List String) (t : TypeRef) :
    Agrees (Alike R) (resolve visit at_ budget opened t) := by
  induction budget generalizing opened t with
  | zero =>
    rw [resolve]
    refine (Agrees.closed _).rebuildM (agrees_checkGeneric hR at_) (agrees_resolvePart hvisit
      (agrees_resolveName hR hvisit at_ fun name _ d => ?_)) t
    split
    · exact (agrees_report hR _ _).bind fun _ => .pure _
    · exact .pure _
  | succ budget ih =>
    rw [resolve]
    refine (Agrees.closed _).rebuildM (agrees_checkGeneric hR at_) (agrees_resolvePart hvisit
      (agrees_resolveName hR hvisit at_ fun name _ d => ?_)) t
    split
    · exact (agrees_report hR _ _).bind fun _ => .pure _
    · exact (ih _ _).bind fun _ => agrees_memoize _ _

theorem agrees_linkTypes (hvisit : ∀ id, Agrees (Alike R) (visit id)) (id : EntityId) :
    Agrees (Alike R) (linkTypes visit id) := by
  unfold linkTypes
  refine .get_bind (fun _ _ h => by rw [h.table_eq]) fun l => ?_
  split
  next => exact .pure _
  next e _ =>
    refine .get_bind (fun _ _ h => by rw [h.table_eq]) fun l => ?_
    refine ((Agrees.closed _).mapTypesM (fun at_ t => agrees_resolve hR hvisit at_ _ [] t) e).bind
      fun linked => ?_
    exact agrees_withTable (·.set id linked)

omit hR in
theorem agrees_visitParent (hvisit : ∀ id, Agrees (Alike R) (visit id))
    (parent : Option EntityId) : Agrees (Alike R) (visitParent visit parent) := by
  cases parent with
  | none => exact .pure _
  | some parent => exact hvisit parent

theorem Alike.isDue_eq (h : Alike R l l') (id : EntityId) : l'.isDue id = l.isDue id := by
  rw [isDue, isDue, (alike_iff.mp h).1.isOverLimit_eq hR, h.table_eq]

theorem agrees_visit (budget : Nat) (id : EntityId) :
    Agrees (Alike R) (Linker.visit budget id) := by
  induction budget generalizing id with
  | zero => exact .pure _
  | succ budget ih =>
    rw [Linker.visit]
    refine .get_bind (fun _ _ h => by rw [h.isDue_eq hR]) fun l => ?_
    split
    · have henter : Agrees (Alike R) (enter id) := .update fun _ _ h => by
        cases h with
        | mk h => exact .mk h
      refine henter.bind fun _ => (agrees_linkParent hR id).bind fun parent => ?_
      exact (agrees_linkTypes hR ih id).bind fun _ => agrees_visitParent ih parent
    · exact .pure _

theorem agreesRun_link (id : EntityId) : AgreesRun (Alike R) (link id) := by
  have hvisit : ∀ ⦃l l'⦄, Alike R l l' →
      Alike R (Linker.visit l.table.size id l).2 (Linker.visit l'.table.size id l').2 := by
    intro l l' h
    rw [h.table_eq]
    exact (agrees_visit hR l.table.size id h).2
  refine (AgreesRun.update hvisit).bind fun _ => ?_
  refine .get_bind (fun _ _ h => by rw [(alike_iff.mp h).1.isOverLimit_eq hR]) fun l => ?_
  split
  · exact .throw _
  · exact .pure _

theorem agreesRun_linkRoots : AgreesRun (Alike R) linkRoots :=
  .get_bind (fun _ _ h => by rw [h.table_eq]) fun _ => .forM fun id _ => agreesRun_link hR id

end Linker

omit hR in
theorem agreesRun_withLinker {action : EStateM Stop Linker Unit}
    (h : AgreesRun (Linker.Alike R) action) : AgreesRun (Alike R) (withLinker action) := by
  intro c c' hc
  have hrun := h (Linker.alike_iff.mpr ⟨hc, rfl⟩ :
    Linker.Alike R { compilation := c } { compilation := c' })
  unfold withLinker
  generalize action { compilation := c } = r, action { compilation := c' } = r' at hrun ⊢
  cases hrun with
  | ok _ h => exact .ok () (Linker.alike_iff.mp h).1
  | error stop h => exact .error stop (Linker.alike_iff.mp h).1

theorem agreesRun_linkInterfaces : AgreesRun (Alike R) linkInterfaces :=
  agreesRun_withLinker (Linker.agreesRun_linkRoots hR)

/-! ## Promises and method names -/

theorem agrees_promiseOf (package : String) (at_ : Location) (element : TypeRef) :
    Agrees (Alike R) (promiseOf package at_ element) := by
  intro c c' h
  rw [run_promiseOf, run_promiseOf, h.table_eq]
  cases c.table.promise? (c.table.spelling element) with
  | some made => exact ⟨rfl, h.withTable _⟩
  | none =>
      cases isRefusedElement element with
      | true => exact ⟨rfl, h.report hR _ at_⟩
      | false =>
          cases h with
          | mk h => exact ⟨rfl, .mk h⟩

theorem agrees_replacePromise (package : String) (at_ : Location) (t : TypeRef) :
    Agrees (Alike R) (replacePromise package at_ t) := by
  unfold replacePromise
  split
  next name args =>
    split
    · split
      next element =>
        refine (agrees_promiseOf hR package at_ element).bind fun found => ?_
        split
        · exact .pure _
        · exact .pure _
      next =>
        exact (Agrees.update (keepsAlike_report hR _ at_)).bind fun _ => .pure _
    · exact .pure _
  next => exact .pure _

theorem keepsAlike_withSettled (id : EntityId) (e : Entity) :
    KeepsAlike R (·.withSettled id e) := by
  intro c c' h
  have hwalk : Agrees (Alike R) (e.mapTypesM (replacePromises e.identity.package)) :=
    (Agrees.closed _).mapTypesM (fun at_ t => (Agrees.closed _).rebuildM
      (fun _ => .pure _) (agrees_replacePromise hR e.identity.package at_) t) e
  obtain ⟨hsettled, hstates⟩ := hwalk h
  unfold withSettled
  dsimp only
  rw [hsettled, hstates.table_eq]
  exact hstates.withTable _

theorem agreesRun_settlePromises (id : EntityId) : AgreesRun (Alike R) (settlePromises id) := by
  intro c c' h
  rw [settlePromises_run, settlePromises_run, h.table_eq]
  cases c.table.entity? id with
  | none => exact agreesRun_checkLimit hR h
  | some e => exact agreesRun_checkLimit hR (keepsAlike_withSettled hR id e h)

theorem agreesRun_instantiatePromises : AgreesRun (Alike R) instantiatePromises :=
  .get_bind (fun _ _ h => by rw [h.table_eq]) fun _ =>
    .forM fun id _ => agreesRun_settlePromises hR id

theorem agreesRun_resolveMethodNames : AgreesRun (Alike R) resolveMethodNames := by
  refine agreesRun_polled hR fun c c' h => ?_
  dsimp only
  rw [h.table_eq]
  exact h.withTable _

/-! ## Scripts -/

namespace Compilation

open Script (Action Block Edit Item Selection)

variable (file : String)

theorem alike_editCopy (actions : List Action) (e : Entity) {c c' : Compilation}
    (h : Alike R c c') : (editCopy file actions e c').2 = (editCopy file actions e c).2 ∧
      Alike R (editCopy file actions e c).1 (editCopy file actions e c').1 := by
  induction actions generalizing e c c' with
  | nil => exact ⟨rfl, h⟩
  | cons action rest ih =>
    unfold editCopy
    rw [h.isOverLimit_eq hR, h.table_eq]
    cases c.isOverLimit with
    | true => exact ⟨rfl, h⟩
    | false =>
        cases action.effect with
        | select s => exact ih e h
        | edit edit =>
            cases happly : edit.apply c.table e with
            | ok e' =>
                simp only [happly]
                exact ih e' h
            | error issue =>
                simp only [happly]
                exact ih e (h.report hR issue ⟨file, action.line⟩)

theorem keepsAlike_editOne (s : Selection) (line : Nat) (id : EntityId) :
    KeepsAlike R (editOne file s line · id) := by
  intro c c' h
  unfold editOne
  dsimp only
  rw [h.isOverLimit_eq hR, h.table_eq]
  cases c.isOverLimit with
  | true => exact h
  | false =>
      cases c.table.entity? id with
      | none => exact h
      | some e =>
          cases happly : s.edit.apply c.table e with
          | ok e' =>
              simp only [happly]
              exact h.withTable _
          | error issue =>
              simp only [happly]
              exact h.report hR issue _

theorem keepsAlike_applySelection (s : Selection) (line : Nat) :
    KeepsAlike R (·.applySelection file s line) := by
  intro c c' h
  have hselected : c'.selected s = c.selected s := by
    rw [selected, selected, h.table_eq]
  unfold applySelection
  dsimp only
  rw [hselected]
  exact KeepsAlike.foldl (fun id => keepsAlike_editOne hR file s line id) (c.selected s) h

theorem keepsAlike_applySelections (actions : List Action) :
    KeepsAlike R (·.applySelections file actions) := by
  unfold applySelections
  refine KeepsAlike.foldl (fun action c c' h => ?_) actions
  dsimp only
  rw [h.isOverLimit_eq hR]
  cases action.effect with
  | edit edit => exact h
  | select s =>
      cases c.isOverLimit with
      | true => exact h
      | false => exact keepsAlike_applySelection hR file s action.line h

theorem keepsAlike_commit (errors : Nat) (id : EntityId) (e : Entity) :
    KeepsAlike R (·.commit errors id e) := by
  intro c c' h
  have herrors : c'.log.errorCount = c.log.errorCount := h.errors_eq hR
  unfold commit
  dsimp only
  rw [herrors, h.table_eq]
  split
  · exact h.withTable _
  · exact h

theorem keepsAlike_applyBlock (b : Block) : KeepsAlike R (·.applyBlock file b) := by
  intro c c' h
  unfold applyBlock
  dsimp only
  rw [h.table_eq]
  split
  next => exact h.report hR _ _
  next id _ =>
    split
    next => exact h
    next e _ =>
      have herrors : c'.log.errorCount = c.log.errorCount := h.errors_eq hR
      obtain ⟨hcopies, hstates⟩ := alike_editCopy hR file b.actions e h
      rw [herrors]
      generalize editCopy file b.actions e c = run, editCopy file b.actions e c' = run'
        at hcopies hstates ⊢
      obtain ⟨edited, copy⟩ := run
      obtain ⟨edited', copy'⟩ := run'
      obtain rfl : copy' = copy := hcopies
      cases copy' with
      | none => exact hstates
      | some e' =>
          exact keepsAlike_applySelections hR file b.actions (keepsAlike_commit hR _ id e' hstates)

theorem keepsAlike_applyItem (item : Item) : KeepsAlike R (·.applyItem file item) := by
  cases item with
  | block b => exact keepsAlike_applyBlock hR file b
  | global s line => exact keepsAlike_applySelection hR file s line

end Compilation

theorem agreesRun_script (script : Script) : AgreesRun (Alike R) script.run := by
  refine (AgreesRun.forM fun item _ => ?_).bind fun _ => agreesRun_checkLimit hR
  exact (agreesRun_checkLimit hR).bind fun _ => .update (keepsAlike_applyItem hR script.file item)

theorem agreesRun_runScripts (sources : List Script.Source) :
    AgreesRun (Alike R) (runScripts sources) := by
  refine .forM fun source _ => ?_
  unfold Script.Source.run
  generalize Script.read source = r
  obtain ⟨script, reports⟩ := r
  dsimp only
  have hreports : KeepsAlike R fun c => reports.foldl (fun c (r : Issue × Nat) =>
      c.report r.1 ⟨source.file, r.2⟩) c := .foldl (fun r => keepsAlike_report hR r.1 _) reports
  refine (AgreesRun.update hreports).bind fun _ => ?_
  cases script with
  | none => exact agreesRun_checkLimit hR
  | some script => exact (agreesRun_script hR script).bind fun _ => agreesRun_checkLimit hR

/-! ## Whole runs -/

theorem agreesRun_action (documents : List Syntax.Document) (scripts : List Script.Source)
    (stage : Stage) : AgreesRun (Alike R) (stage.action documents scripts) := by
  cases stage with
  | extract => exact .forM fun d _ => .forM fun definition _ =>
      agreesRun_declareDefinition hR d.name definition
  | merge => exact agreesRun_mergeFragments hR
  | link => exact agreesRun_linkInterfaces hR
  | promise => exact agreesRun_instantiatePromises hR
  | overrides => exact agreesRun_resolveMethodNames hR
  | transform => exact agreesRun_runScripts hR scripts

theorem agreesRun_runStage {action : CompileM Unit} (h : AgreesRun (Alike R) action)
    (stage : Stage) : AgreesRun (Alike R) (runStage action stage) := by
  refine h.bind fun _ => .get_bind (fun c c' h => ?_) fun c => ?_
  · have herrors : c'.log.errorCount = c.log.errorCount := h.errors_eq hR
    rw [herrors]
  · dsimp only
    split
    · exact .throw _
    · exact .pure _

/-- Compilations that are alike compile to the same result. -/
theorem agreesRun_compile (documents : List Syntax.Document) (scripts : List Script.Source) :
    AgreesRun (Alike R) (compile documents scripts) := by
  refine (AgreesRun.forM fun stage _ =>
    agreesRun_runStage hR (agreesRun_action hR documents scripts stage) stage).bind fun _ => ?_
  have htake : AgreesRun (Alike R) takeTable := fun c c' h => by
    cases h with
    | mk h => exact .ok c.table (.mk h)
  exact htake.bind fun _ => .pure _

end IdlModel
