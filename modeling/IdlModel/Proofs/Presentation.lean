import IdlModel.Proofs.Endings
import IdlModel.Proofs.ScriptRuns

/-!
# Presentation

What scripts leave alone, however they end.

*Entities.*  A script changes how an entity is *presented*: its names, what shows in the place
of a type, and the events, of which more may come at the end.  The outline stays.

*Tables.*  Entities, marks and names stay where they are, and mixins, typedefs and promises as
they are.

*Patterns.*  None of this depends on what patterns accept.  So scripts are run with any
*reading* of patterns, that is, with any test of names for each of them: `runScriptsBy`.

*Steps.*  To run scripts is to report issues and to put back entities with another presentation.
A relation that holds along these holds along the runs: `Edits`.
-/

namespace IdlModel

/-! ## Entities -/

/-- An entity and how it is presented later. -/
structure Entity.Presents (e e' : Entity) : Prop where
  outline : e'.outline = e.outline
  events : e.events <+: e'.events

namespace Entity.Presents

variable {e e' e'' : Entity}

theorem refl (e : Entity) : e.Presents e := ⟨rfl, List.prefix_rfl⟩

theorem trans (h : e.Presents e') (h' : e'.Presents e'') : e.Presents e'' :=
  ⟨h'.outline.trans h.outline, h.events.trans h'.events⟩

end Entity.Presents

/-- An edit changes how an entity is presented. -/
theorem Script.Edit.apply_presents {t : SymbolTable} {e e' : Entity} {edit : Script.Edit}
    (h : edit.apply t e = .ok e') : e.Presents e' := by
  refine ⟨apply_outline h, ?_⟩
  rcases apply_cases h with ⟨value, p, rfl⟩ | ⟨member, type, -, -, rfl⟩ | ⟨d, m, rfl, -, rfl⟩ |
    ⟨d, v, rfl, -, rfl⟩
  · exact e.events_withProperty value p ▸ List.prefix_rfl
  · exact e.events_withOverride member type ▸ List.prefix_rfl
  · exact List.prefix_rfl
  · exact List.prefix_append d.events [v]

theorem Entity.EditedBy.presents {t : SymbolTable} {D : Script.Edit → Prop} {e e' : Entity}
    (h : e.EditedBy t D e') : e.Presents e' := by
  induction h with
  | refl => exact .refl e
  | tail _ hedit ih =>
      obtain ⟨edit, -, happly⟩ := hedit
      exact ih.trans (Script.Edit.apply_presents happly)

/-! ## Tables -/

/-- A table and how it is presented later. -/
structure SymbolTable.Presents (t t' : SymbolTable) : Prop where
  size : t'.size = t.size
  names : t'.names = t.names
  mixins : t'.mixins = t.mixins
  typedefs : t'.typedefs = t.typedefs
  promises : t'.promises = t.promises
  marks : ∀ x, t'.isInUse x = t.isInUse x
  entities : ∀ x e, t.entity? x = some e → ∃ e', t'.entity? x = some e' ∧ e.Presents e'

namespace SymbolTable.Presents

variable {t t' t'' : SymbolTable} {x : EntityId} {e e' : Entity}

theorem refl (t : SymbolTable) : t.Presents t :=
  ⟨rfl, rfl, rfl, rfl, rfl, fun _ => rfl, fun _ e he => ⟨e, he, .refl e⟩⟩

theorem trans (h : t.Presents t') (h' : t'.Presents t'') : t.Presents t'' where
  size := h'.size.trans h.size
  names := h'.names.trans h.names
  mixins := h'.mixins.trans h.mixins
  typedefs := h'.typedefs.trans h.typedefs
  promises := h'.promises.trans h.promises
  marks x := (h'.marks x).trans (h.marks x)
  entities x e he := by
    obtain ⟨e', he', hpresents⟩ := h.entities x e he
    obtain ⟨e'', he'', hpresents'⟩ := h'.entities x e' he'
    exact ⟨e'', he'', hpresents.trans hpresents'⟩

theorem set (he : t.entity? x = some e) (h : e.Presents e') : t.Presents (t.set x e') where
  size := t.size_set x e'
  names := rfl
  mixins := rfl
  typedefs := rfl
  promises := rfl
  marks y := t.isInUse_set x y e'
  entities y d hd := by
    by_cases hyx : y = x
    · subst hyx
      obtain rfl := Option.some.inj (hd.symm.trans he)
      exact ⟨e', entity?_set_self (lt_of_entity? he) e', h⟩
    · exact ⟨d, (t.entity?_set_of_ne hyx e').trans hd, .refl d⟩

end SymbolTable.Presents

namespace Compilation

/-- A compilation whose table is presented by a later one. -/
def Presents (c c' : Compilation) : Prop := c.table.Presents c'.table

theorem Presents.refl (c : Compilation) : c.Presents c := SymbolTable.Presents.refl c.table

theorem Presents.trans ⦃c c' c'' : Compilation⦄ (h : c.Presents c') (h' : c'.Presents c'') :
    c.Presents c'' := SymbolTable.Presents.trans h h'

end Compilation

/-! ## Readings of patterns -/

namespace Compilation

open Script (Action Block Item Selection)

variable (accepts : Pattern → String → Bool)

/-- The entities that a selection is for, with this reading of patterns. -/
def selectedBy (c : Compilation) (s : Selection) : List EntityId :=
  c.table.ids.filter fun id =>
    (c.table.entity? id).any fun e => s.filter.passes e.kind && accepts s.pattern e.key

/-- Make the edit of a selection at every entity that it is for. -/
def applySelectionBy (file : String) (s : Selection) (line : Nat) (c : Compilation) :
    Compilation :=
  (c.selectedBy accepts s).foldl (editOne file s line) c

/-- Run the selections among some actions. -/
def applySelectionsBy (file : String) (actions : List Action) (c : Compilation) : Compilation :=
  actions.foldl (fun c action =>
    match action.effect with
    | .select s => if c.isOverLimit then c else c.applySelectionBy accepts file s action.line
    | .edit _ => c) c

/-- Run a block. -/
def applyBlockBy (file : String) (b : Block) (c : Compilation) : Compilation :=
  match c.table.lookupType? b.name with
  | none => c.report (.unknownType b.name) ⟨file, b.line⟩
  | some id =>
      match c.table.entity? id with
      | none => c
      | some e =>
          match editCopy file b.actions e c with
          | (edited, none) => edited
          | (edited, some e) =>
              (edited.commit c.log.errorCount id e).applySelectionsBy accepts file b.actions

/-- Run an item of a script. -/
def applyItemBy (file : String) (item : Item) (c : Compilation) : Compilation :=
  match item with
  | .block b => c.applyBlockBy accepts file b
  | .global s line => c.applySelectionBy accepts file s line

end Compilation

/-- Run a script with this reading of patterns. -/
def Script.runBy (accepts : Pattern → String → Bool) (script : Script) : CompileM Unit := do
  script.items.forM fun item => do
    checkLimit
    modify (·.applyItemBy accepts script.file item)
  checkLimit

/-- Read a script and run it with this reading of patterns. -/
def Script.Source.runBy (accepts : Pattern → String → Bool) (source : Script.Source) :
    CompileM Unit := do
  let (script, reports) := Script.read source
  modify fun c => reports.foldl (fun c (issue, line) => c.report issue ⟨source.file, line⟩) c
  match script with
  | some script => script.runBy accepts
  | none => pure ()
  checkLimit

/-- Run scripts with this reading of patterns. -/
def runScriptsBy (accepts : Pattern → String → Bool) (sources : List Script.Source) :
    CompileM Unit := sources.forM (Script.Source.runBy accepts)

/-- Scripts are run with the reading by which a pattern accepts what it matches. -/
theorem runScriptsBy_accepts : runScriptsBy Pattern.accepts = runScripts := rfl

/-! ## Running scripts -/

/-- What a relation has to hold along to hold along the running of scripts. -/
structure Edits (R : Compilation → Compilation → Prop) : Prop where
  refl : ∀ c, R c c
  trans : ∀ ⦃c c' c''⦄, R c c' → R c' c'' → R c c''
  report : ∀ c issue at_, R c (c.report issue at_)
  put : ∀ c id e e', c.table.entity? id = some e → e.Presents e' →
    R c { c with table := c.table.set id e' }

namespace Edits

open Script (Action Block Item Selection)

variable {R : Compilation → Compilation → Prop} (h : Edits R) (accepts : Pattern → String → Bool)
  (file : String)

include h

theorem editOne (s : Selection) (line : Nat) (c : Compilation) (id : EntityId) :
    R c (c.editOne file s line id) := by
  unfold Compilation.editOne
  split
  next => exact h.refl c
  next =>
    split
    next => exact h.refl c
    next e he =>
      split
      next e' happly => exact h.put c id e e' he (Script.Edit.apply_presents happly)
      next issue _ => exact h.report c issue _

theorem applySelectionBy (s : Selection) (line : Nat) (c : Compilation) :
    R c (c.applySelectionBy accepts file s line) :=
  foldl_leads h.refl h.trans (fun id _ c => h.editOne file s line c id) c

theorem applySelectionsBy (actions : List Action) (c : Compilation) :
    R c (c.applySelectionsBy accepts file actions) := by
  refine foldl_leads h.refl h.trans (fun action _ c => ?_) c
  split
  next s _ =>
    split
    · exact h.refl c
    · exact h.applySelectionBy accepts file s action.line c
  next => exact h.refl c

/-- The edits of a block only report, for they work on a copy. -/
theorem editCopy (actions : List Action) (e : Entity) (c : Compilation) :
    R c (Compilation.editCopy file actions e c).1 := by
  induction actions generalizing e c with
  | nil => exact h.refl c
  | cons action rest ih =>
    unfold Compilation.editCopy
    split
    next => exact h.refl c
    next =>
      split
      next => exact ih e c
      next edit _ =>
        split
        next e' _ => exact ih e' c
        next issue _ => exact h.trans (h.report c issue _) (ih e _)

/-- The copy of a block takes the place of its entity, or nothing does. -/
theorem commit {c : Compilation} {id : EntityId} {e e' : Entity}
    (he : c.table.entity? id = some e) (hpresents : e.Presents e') (errors : Nat) :
    R c (c.commit errors id e') := by
  unfold Compilation.commit
  split
  · exact h.put c id e e' he hpresents
  · exact h.refl c

theorem applyBlockBy (b : Block) (c : Compilation) : R c (c.applyBlockBy accepts file b) := by
  unfold Compilation.applyBlockBy
  split
  next => exact h.report ..
  next id _ =>
    split
    next => exact h.refl c
    next e he =>
      have hedited := h.editCopy file b.actions e c
      obtain ⟨htable, hcopy⟩ := Compilation.editCopy_spec file b.actions e c
      generalize Compilation.editCopy file b.actions e c = r at hedited htable hcopy
      obtain ⟨edited, copy⟩ := r
      cases copy with
      | none => exact hedited
      | some e' =>
          have he' : edited.table.entity? id = some e := htable ▸ he
          exact h.trans (h.trans hedited (h.commit he' (hcopy e' rfl).presents _))
            (h.applySelectionsBy accepts file b.actions _)

theorem applyItemBy (item : Item) (c : Compilation) : R c (c.applyItemBy accepts file item) := by
  cases item with
  | block b => exact h.applyBlockBy accepts file b c
  | global s line => exact h.applySelectionBy accepts file s line c

theorem runBy (script : Script) : EndsAlong R (script.runBy accepts) := by
  have hpoll := endsAlong_checkLimit h.refl
  refine .bind h.trans (.forM h.trans h.refl fun item _ => ?_) fun _ => hpoll
  exact .bind h.trans hpoll fun _ => .update (h.applyItemBy accepts _ item)

/-- The reports of the reader come before a script. -/
theorem reports (issues : List (Issue × Nat)) (c : Compilation) :
    R c (issues.foldl (fun c (issue, line) => c.report issue ⟨file, line⟩) c) :=
  foldl_leads h.refl h.trans (fun _ _ c => h.report c _ _) c

theorem runScriptsBy (sources : List Script.Source) : EndsAlong R (runScriptsBy accepts sources) := by
  have hpoll := endsAlong_checkLimit h.refl
  refine .forM h.trans h.refl fun source _ => ?_
  unfold Script.Source.runBy
  generalize Script.read source = r
  obtain ⟨script, issues⟩ := r
  refine .bind h.trans (.update (h.reports source.file issues)) fun _ => ?_
  cases script with
  | some script => exact .bind h.trans (h.runBy accepts script) fun _ => hpoll
  | none => exact hpoll

end Edits

/-- Whatever scripts do, they change how entities are presented. -/
theorem edits_presents : Edits Compilation.Presents where
  refl := .refl
  trans := .trans
  report c _ _ := .refl c
  put _ _ _ _ he h := .set he h

/-- Whatever scripts say, whatever their patterns accept and however their run ends, they change
nothing but how entities are presented. -/
theorem scripts_change_presentation (sources : List Script.Source) (c : Compilation) :
    c.table.Presents (endState (runScripts sources c)).table ∧
      ∀ accepts : Pattern → String → Bool,
        c.table.Presents (endState (runScriptsBy accepts sources c)).table :=
  ⟨edits_presents.runScriptsBy Pattern.accepts sources c,
    fun accepts => edits_presents.runScriptsBy accepts sources c⟩

end IdlModel
