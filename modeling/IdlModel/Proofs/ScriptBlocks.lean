import IdlModel.Proofs.ScriptRuns

/-!
# Blocks of scripts

A block is a unit, its selections apart.

*Edits.*  The edits of a block are made one after the other at a copy of its entity.  Each
that fails is an error, and the copy is kept only if there is none: `editCopy_ok` and
`errors_editCopy`.

*Units.*  A block with selections is the block without them, with the selections behind it:
`applyBlock_eq`.  The block without them is a unit.  What selections do is none of it.  They
find the copy in its place if it was kept, and an error of theirs does not take it back.
-/

namespace IdlModel

open Script (Action Block Edit)

/-! ## Edits one after the other -/

namespace Script

/-- The edit that an action is. -/
def Action.edit? (a : Action) : Option Edit :=
  match a.effect with
  | .edit edit => some edit
  | .select _ => none

/-- The edits of a block. -/
def Block.edits (b : Block) : List Edit := b.actions.filterMap Action.edit?

/-- A block is plain if it has edits only. -/
def Block.IsPlain (b : Block) : Prop := ∀ a ∈ b.actions, ∃ edit, a.effect = .edit edit

/-- The block without its selections. -/
def Block.withoutSelections (b : Block) : Block :=
  { b with actions := b.actions.filter (·.edit?.isSome) }

theorem Block.isPlain_withoutSelections (b : Block) : b.withoutSelections.IsPlain := by
  intro a ha
  obtain ⟨_, hsome⟩ := List.mem_filter.mp ha
  cases heffect : a.effect with
  | edit edit => exact ⟨edit, rfl⟩
  | select s => simp [Action.edit?, heffect] at hsome

theorem Block.edits_withoutSelections (b : Block) : b.withoutSelections.edits = b.edits := by
  unfold edits withoutSelections
  rw [List.filterMap_filter]
  refine List.filterMap_congr fun a _ => ?_
  cases a.edit? <;> rfl

namespace Edit

variable {t t' : SymbolTable} {e e' : Entity} {edit : Edit} {edits : List Edit}

/-- Make edits one after the other.  The first that fails is the end of it. -/
def applyAll (t : SymbolTable) (edits : List Edit) (e : Entity) : Except Issue Entity :=
  edits.foldlM (fun e edit => edit.apply t e) e

/-- The number of edits that fail, if one that fails is left out. -/
def failures (t : SymbolTable) : List Edit → Entity → Nat
  | [], _ => 0
  | edit :: edits, e =>
      match edit.apply t e with
      | .ok e => failures t edits e
      | .error _ => failures t edits e + 1

theorem applyAll_cons_ok (h : edit.apply t e = .ok e') :
    applyAll t (edit :: edits) e = applyAll t edits e' := by
  rw [applyAll, List.foldlM_cons, h]
  rfl

theorem applyAll_cons_error {issue : Issue} (h : edit.apply t e = .error issue) :
    applyAll t (edit :: edits) e = .error issue := by
  rw [applyAll, List.foldlM_cons, h]
  rfl

theorem applyAll_append (edits edits' : List Edit) (h : applyAll t edits e = .ok e') :
    applyAll t (edits ++ edits') e = applyAll t edits' e' := by
  unfold applyAll at h ⊢
  rw [List.foldlM_append, h]
  rfl

theorem failures_cons_ok (h : edit.apply t e = .ok e') :
    failures t (edit :: edits) e = failures t edits e' := by
  simp only [failures, h]

theorem failures_cons_error {issue : Issue} (h : edit.apply t e = .error issue) :
    failures t (edit :: edits) e = failures t edits e + 1 := by
  simp only [failures, h]

theorem failures_eq_zero : failures t edits e = 0 ↔ ∃ e', applyAll t edits e = .ok e' := by
  induction edits generalizing e with
  | nil => exact ⟨fun _ => ⟨e, rfl⟩, fun _ => rfl⟩
  | cons edit edits ih =>
    cases happly : edit.apply t e with
    | ok e' => rw [failures_cons_ok happly, applyAll_cons_ok happly, ih]
    | error issue => simp [failures_cons_error happly, applyAll_cons_error happly]

/-- What stands in the way of an edit is an error. -/
theorem apply_error {issue : Issue} (h : edit.apply t e = .error issue) :
    issue.severity = .error := by
  have hset : ∀ {name value : String}, e.setProperty name value = .error issue →
      issue.severity = .error := by
    intro name value h
    unfold Entity.setProperty Entity.findProperty at h
    split at h
    next =>
      change (if _ then _ else _) = _ at h
      split at h <;> cases h
      rfl
    next =>
      cases h
      rfl
  cases edit with
  | setProperty name value => exact hset h
  | rename member newName =>
      unfold apply Entity.renameMembers at h
      dsimp only at h
      split at h
      next =>
        split at h <;> cases h
        rfl
      next =>
        cases h
        rfl
  | changeType member type =>
      unfold apply Entity.changeType at h
      dsimp only at h
      split at h
      next =>
        cases h
        rfl
      next =>
        split at h <;> cases h
        rfl
  | patch => cases e <;> cases h <;> rfl
  | replace property old new =>
      unfold apply Entity.replaceInProperty at h
      dsimp only at h
      cases hproperty : e.findProperty property with
      | ok p =>
          rw [hproperty] at h
          exact hset h
      | error other =>
          rw [hproperty] at h
          cases h
          unfold Entity.findProperty at hproperty
          split at hproperty <;> cases hproperty
          rfl
  | event name type =>
      unfold apply Entity.addEvent at h
      dsimp only at h
      split at h
      next =>
        split at h <;> cases h
        rfl
      next =>
        cases h
        rfl

/-- Edits that are made make an edited entity. -/
theorem editedBy_of_applyAll {D : Edit → Prop} (hD : ∀ edit ∈ edits, D edit)
    (h : applyAll t edits e = .ok e') : e.EditedBy t D e' := by
  induction edits generalizing e with
  | nil =>
    cases h
    exact .refl
  | cons edit edits ih =>
    obtain ⟨hfirst, hrest⟩ := List.forall_mem_cons.mp hD
    cases happly : edit.apply t e with
    | ok e₁ =>
        rw [applyAll_cons_ok happly] at h
        exact .head ⟨edit, hfirst, happly⟩ (ih hrest h)
    | error issue =>
        rw [applyAll_cons_error happly] at h
        cases h

/-- An edited entity has been made by some list of edits. -/
theorem applyAll_of_editedBy {D : Edit → Prop} (h : e.EditedBy t D e') :
    ∃ edits, (∀ edit ∈ edits, D edit) ∧ applyAll t edits e = .ok e' := by
  induction h with
  | refl => exact ⟨[], fun _ hedit => (nomatch hedit), rfl⟩
  | tail _ hlast ih =>
      obtain ⟨edits, hD, hall⟩ := ih
      obtain ⟨edit, hedit, happly⟩ := hlast
      refine ⟨edits ++ [edit], ?_, ?_⟩
      · exact List.forall_mem_append.mpr ⟨hD, List.forall_mem_singleton.mpr hedit⟩
      · rw [applyAll_append edits [edit] hall, applyAll_cons_ok happly]
        rfl

theorem applyAll_congr (h : t.Renamed t') : applyAll t' = applyAll t := by
  funext edits e
  simp only [applyAll, apply_congr h]

theorem failures_congr (h : t.Renamed t') : failures t' = failures t := by
  funext edits e
  induction edits generalizing e with
  | nil => rfl
  | cons edit edits ih => simp only [failures, apply_congr h, ih]

end Edit

end Script

namespace Compilation

variable {c : Compilation} {file : String} {x : EntityId} {e e' : Entity}

/-! ## Copies -/

/-- What becomes of a copy at the first of some actions. -/
theorem editCopy_cons (file : String) (action : Action) (e : Entity) (c : Compilation) :
    (c.isOverLimit = true ∧ ∀ rest, editCopy file (action :: rest) e c = (c, none)) ∨
      (action.edit? = none ∧
        ∀ rest, editCopy file (action :: rest) e c = editCopy file rest e c) ∨
      (∃ edit e', action.edit? = some edit ∧ edit.apply c.table e = .ok e' ∧
        ∀ rest, editCopy file (action :: rest) e c = editCopy file rest e' c) ∨
      ∃ edit issue, action.edit? = some edit ∧ edit.apply c.table e = .error issue ∧
        ∀ rest, editCopy file (action :: rest) e c =
          editCopy file rest e (c.report issue ⟨file, action.line⟩) := by
  by_cases hover : c.isOverLimit = true
  · exact .inl ⟨hover, fun rest => by rw [editCopy, if_pos hover]⟩
  · refine .inr ?_
    cases heffect : action.effect with
    | select s =>
        have hnone : action.edit? = none := by rw [Action.edit?, heffect]
        exact .inl ⟨hnone, fun rest => by simp only [editCopy, if_neg hover, heffect]⟩
    | edit edit =>
        have hsome : action.edit? = some edit := by rw [Action.edit?, heffect]
        refine .inr ?_
        cases happly : edit.apply c.table e with
        | ok e' =>
            refine .inl ⟨edit, e', hsome, happly, fun rest => ?_⟩
            simp only [editCopy, if_neg hover, heffect, happly]
        | error issue =>
            refine .inr ⟨edit, issue, hsome, happly, fun rest => ?_⟩
            simp only [editCopy, if_neg hover, heffect, happly]

/-- Over the limit no edit is made. -/
theorem editCopy_of_isOverLimit (h : c.isOverLimit = true) (file : String) (actions : List Action)
    (e : Entity) : (editCopy file actions e c).1 = c ∧
      ∀ e', (editCopy file actions e c).2 = some e' → e' = e := by
  cases actions with
  | nil => exact ⟨rfl, fun _ he' => (Option.some.inj he').symm⟩
  | cons action rest =>
      rw [editCopy, if_pos h]
      exact ⟨rfl, fun _ he' => nomatch he'⟩

@[simp] theorem settings_editCopy (file : String) (actions : List Action) (e : Entity)
    (c : Compilation) : (editCopy file actions e c).1.settings = c.settings := by
  induction actions generalizing e c with
  | nil => rfl
  | cons action rest ih =>
    rcases editCopy_cons file action e c with ⟨-, hcopy⟩ | ⟨-, hcopy⟩ | ⟨_, e', -, -, hcopy⟩ |
      ⟨_, issue, -, -, hcopy⟩
    · rw [hcopy]
    · rw [hcopy, ih]
    · rw [hcopy, ih]
    · rw [hcopy, ih]
      rfl

/-- A copy has at most as many errors as its edits, and exactly as many if it is finished. -/
theorem errors_editCopy (file : String) (actions : List Action) (e : Entity) (c : Compilation) :
    c.errors ≤ (editCopy file actions e c).1.errors ∧
      (editCopy file actions e c).1.errors ≤
        c.errors + Edit.failures c.table (actions.filterMap Action.edit?) e ∧
      ((editCopy file actions e c).1.isOverLimit = false →
        (editCopy file actions e c).1.errors =
          c.errors + Edit.failures c.table (actions.filterMap Action.edit?) e) := by
  induction actions generalizing e c with
  | nil => exact ⟨Nat.le_refl _, Nat.le_refl _, fun _ => rfl⟩
  | cons action rest ih =>
    rcases editCopy_cons file action e c with ⟨hover, hcopy⟩ | ⟨hnone, hcopy⟩ |
      ⟨edit, e', hsome, happly, hcopy⟩ | ⟨edit, issue, hsome, happly, hcopy⟩
    · rw [hcopy]
      refine ⟨Nat.le_refl _, Nat.le_add_right _ _, fun h => ?_⟩
      exact absurd (hover.symm.trans h) (by decide)
    · rw [hcopy, List.filterMap_cons_none hnone]
      exact ih e c
    · rw [hcopy, List.filterMap_cons_some hsome, Edit.failures_cons_ok happly]
      exact ih e' c
    · have hreport := errors_report_of_error (Edit.apply_error happly) c ⟨file, action.line⟩
      obtain ⟨hle, hge, hfinished⟩ := ih e (c.report issue ⟨file, action.line⟩)
      rw [hreport, table_report] at hge hfinished
      rw [hreport] at hle
      rw [hcopy, List.filterMap_cons_some hsome, Edit.failures_cons_error happly]
      refine ⟨by omega, by omega, fun h => ?_⟩
      rw [hfinished h]
      omega

/-- Edits of which none fails are all made, and nothing else happens. -/
theorem editCopy_ok (h : c.isOverLimit = false) (file : String) {actions : List Action}
    (hedits : Edit.applyAll c.table (actions.filterMap Action.edit?) e = .ok e') :
    editCopy file actions e c = (c, some e') := by
  induction actions generalizing e with
  | nil =>
    cases hedits
    rfl
  | cons action rest ih =>
    rcases editCopy_cons file action e c with ⟨hover, -⟩ | ⟨hnone, hcopy⟩ |
      ⟨edit, e₁, hsome, happly, hcopy⟩ | ⟨edit, issue, hsome, happly, -⟩
    · exact absurd (hover.symm.trans h) (by decide)
    · rw [List.filterMap_cons_none hnone] at hedits
      rw [hcopy, ih hedits]
    · rw [List.filterMap_cons_some hsome, Edit.applyAll_cons_ok happly] at hedits
      rw [hcopy, ih hedits]
    · rw [List.filterMap_cons_some hsome, Edit.applyAll_cons_error happly] at hedits
      cases hedits

/-- Selections do not matter for the copy, but for whether it is given up. -/
theorem editCopy_filter (file : String) (actions : List Action) (e : Entity) (c : Compilation) :
    (editCopy file (actions.filter (·.edit?.isSome)) e c).1 = (editCopy file actions e c).1 ∧
      ((editCopy file actions e c).2 = none → (editCopy file actions e c).1.isOverLimit = true) ∧
      ∀ e', (editCopy file actions e c).2 = some e' →
        (editCopy file (actions.filter (·.edit?.isSome)) e c).2 = some e' := by
  induction actions generalizing e c with
  | nil => exact ⟨rfl, nofun, fun _ h => h⟩
  | cons action rest ih =>
    rcases editCopy_cons file action e c with ⟨hover, hcopy⟩ | ⟨hnone, hcopy⟩ |
      ⟨edit, e', hsome, -, hcopy⟩ | ⟨edit, issue, hsome, -, hcopy⟩
    · rw [hcopy]
      exact ⟨(editCopy_of_isOverLimit hover file _ e).1, fun _ => hover, fun _ h => nomatch h⟩
    · rw [hcopy, List.filter_cons_of_neg (by simp [hnone])]
      exact ih e c
    · rw [hcopy, List.filter_cons_of_pos (by simp [hsome]), hcopy]
      exact ih e' c
    · rw [hcopy, List.filter_cons_of_pos (by simp [hsome]), hcopy]
      exact ih e _

/-! ## Blocks and their selections -/

/-- Over the limit no selection runs. -/
theorem applySelections_of_isOverLimit (h : c.isOverLimit = true) (file : String)
    (actions : List Action) : c.applySelections file actions = c := by
  unfold applySelections
  induction actions with
  | nil => rfl
  | cons action rest ih =>
    rw [List.foldl_cons]
    split
    next => rwa [if_pos h]
    next => exact ih

/-- Edits are no selections. -/
theorem applySelections_of_edits {actions : List Action}
    (h : ∀ a ∈ actions, ∃ edit, a.effect = .edit edit) (file : String) (c : Compilation) :
    c.applySelections file actions = c := by
  unfold applySelections
  induction actions with
  | nil => rfl
  | cons action rest ih =>
    obtain ⟨⟨edit, hedit⟩, hrest⟩ := List.forall_mem_cons.mp h
    rw [List.foldl_cons, hedit]
    exact ih hrest

/-- A block whose copy is given up. -/
theorem applyBlock_of_none {b : Block} {edited : Compilation}
    (hname : c.table.lookupType? b.name = some x) (he : c.table.entity? x = some e)
    (hcopy : editCopy file b.actions e c = (edited, none)) : c.applyBlock file b = edited := by
  simp only [applyBlock, hname, he, hcopy]

/-- A block whose copy is finished. -/
theorem applyBlock_of_some {b : Block} {edited : Compilation}
    (hname : c.table.lookupType? b.name = some x) (he : c.table.entity? x = some e)
    (hcopy : editCopy file b.actions e c = (edited, some e')) :
    c.applyBlock file b =
      (edited.commit c.log.errorCount x e').applySelections file b.actions := by
  simp only [applyBlock, hname, he, hcopy]

/-- What a plain block does, at its entity. -/
theorem applyBlock_cases {b : Block} (hplain : b.IsPlain)
    (hname : c.table.lookupType? b.name = some x) (he : c.table.entity? x = some e) :
    c.applyBlock file b = (editCopy file b.actions e c).1 ∨
      ∃ e', c.applyBlock file b = (editCopy file b.actions e c).1.commit c.log.errorCount x e' := by
  cases hcopy : editCopy file b.actions e c with
  | mk edited copy =>
      cases copy with
      | none => exact .inl (applyBlock_of_none hname he hcopy)
      | some e' =>
          refine .inr ⟨e', ?_⟩
          rw [applyBlock_of_some hname he hcopy, applySelections_of_edits hplain]

/-- Edits that all succeed are committed, and nothing else happens. -/
theorem applyBlock_of_applyAll {b : Block} (hplain : b.IsPlain)
    (hname : c.table.lookupType? b.name = some x) (he : c.table.entity? x = some e)
    (hlimit : c.isOverLimit = false) (h : Edit.applyAll c.table b.edits e = .ok e') :
    c.applyBlock file b = { c with table := c.table.set x e' } := by
  rw [applyBlock_of_some hname he (editCopy_ok hlimit file h), applySelections_of_edits hplain]
  exact if_pos rfl

/-- A commit reports nothing. -/
@[simp] theorem errors_commit (c : Compilation) (errors : Nat) (x : EntityId) (e : Entity) :
    (c.commit errors x e).errors = c.errors := by
  unfold commit
  split <;> rfl

@[simp] theorem settings_commit (c : Compilation) (errors : Nat) (x : EntityId) (e : Entity) :
    (c.commit errors x e).settings = c.settings := by
  unfold commit
  split <;> rfl

/-- Behind new errors nothing is committed. -/
theorem commit_of_lt {errors : Nat} (h : errors < c.errors) (x : EntityId) (e : Entity) :
    c.commit errors x e = c :=
  if_neg (Nat.ne_of_gt h)

/-- A copy that is over the limit is not committed. -/
theorem commit_editCopy_of_isOverLimit {edited : Compilation} {actions : List Action}
    (he : c.table.entity? x = some e) (hcopy : editCopy file actions e c = (edited, some e'))
    (hover : edited.isOverLimit = true) : edited.commit c.log.errorCount x e' = edited := by
  cases hfirst : c.isOverLimit with
  | true =>
      obtain ⟨hstate, hkept⟩ := editCopy_of_isOverLimit hfirst file actions e
      rw [hcopy] at hstate hkept
      obtain rfl : edited = c := hstate
      obtain rfl := hkept e' rfl
      rw [commit, if_pos rfl, SymbolTable.set_self he]
  | false =>
      have hsettings : edited.settings = c.settings := by
        simpa only [hcopy] using settings_editCopy file actions e c
      have hlimit := not_isOverLimit_iff.mp hfirst
      have hmore := isOverLimit_iff.mp hover
      rw [hsettings] at hmore
      exact commit_of_lt (Nat.lt_of_le_of_lt hlimit hmore) x e'

/-! ## Units -/

/-- A block with selections is the block without them, with the selections behind it. -/
theorem applyBlock_eq {b : Block} (hname : c.table.lookupType? b.name = some x)
    (he : c.table.entity? x = some e) :
    c.applyBlock file b =
      (c.applyBlock file b.withoutSelections).applySelections file b.actions := by
  obtain ⟨hstate, hgiven, hkept⟩ := editCopy_filter file b.actions e c
  have hplain := b.isPlain_withoutSelections
  have hname' : c.table.lookupType? b.withoutSelections.name = some x := hname
  cases hcopy : editCopy file b.actions e c with
  | mk edited copy =>
      cases hown : editCopy file b.withoutSelections.actions e c with
      | mk edited' copy' =>
          have hfiltered : editCopy file (b.actions.filter (·.edit?.isSome)) e c = (edited', copy') :=
            hown
          rw [hcopy, hfiltered] at hstate hkept
          rw [hcopy] at hgiven
          obtain rfl : edited' = edited := hstate
          cases copy with
          | some e' =>
              obtain rfl : copy' = some e' := hkept e' rfl
              rw [applyBlock_of_some hname he hcopy, applyBlock_of_some hname' he hown,
                applySelections_of_edits hplain]
          | none =>
              have hover : edited'.isOverLimit = true := hgiven rfl
              rw [applyBlock_of_none hname he hcopy]
              cases copy' with
              | none =>
                  rw [applyBlock_of_none hname' he hown, applySelections_of_isOverLimit hover]
              | some e' =>
                  rw [applyBlock_of_some hname' he hown,
                    commit_editCopy_of_isOverLimit he hown hover, applySelections_of_edits hplain,
                    applySelections_of_isOverLimit hover]

/-- Edits of which one fails leave the table as it was. -/
theorem table_applyBlock_of_lt {b : Block} (hplain : b.IsPlain)
    (h : c.errors < (c.applyBlock file b).errors) : (c.applyBlock file b).table = c.table := by
  cases hname : c.table.lookupType? b.name with
  | none => simp only [applyBlock, hname, table_report]
  | some x =>
      cases he : c.table.entity? x with
      | none => simp only [applyBlock, hname, he]
      | some e =>
          have htable := (editCopy_spec file b.actions e c).1
          rcases @applyBlock_cases c file x e b hplain hname he with hblock | ⟨e', hblock⟩
          · rw [hblock, htable]
          · rw [hblock, errors_commit] at h
            rw [hblock]
            exact (congrArg Compilation.table (commit_of_lt h x e')).trans htable

/-- A plain block has at most as many errors as its edits, and just as many unless it passes
the limit. -/
theorem errors_applyBlock {b : Block} (hplain : b.IsPlain)
    (hname : c.table.lookupType? b.name = some x) (he : c.table.entity? x = some e) :
    (c.applyBlock file b).settings = c.settings ∧
      c.errors ≤ (c.applyBlock file b).errors ∧
      (c.applyBlock file b).errors ≤ c.errors + Edit.failures c.table b.edits e ∧
      ((c.applyBlock file b).isOverLimit = false →
        (c.applyBlock file b).errors = c.errors + Edit.failures c.table b.edits e) := by
  have hsettings := settings_editCopy file b.actions e c
  have hcopy := errors_editCopy file b.actions e c
  rcases @applyBlock_cases c file x e b hplain hname he with hblock | ⟨e', hblock⟩
  · rw [hblock]
    exact ⟨hsettings, hcopy⟩
  · rw [hblock, settings_commit, errors_commit,
      isOverLimit_congr (errors_commit ..) (settings_commit ..)]
    exact ⟨hsettings, hcopy⟩

/-- Edits without an error have all been made. -/
theorem applyAll_of_errors_eq {b : Block} (hplain : b.IsPlain)
    (hname : c.table.lookupType? b.name = some x) (he : c.table.entity? x = some e)
    (hlimit : c.isOverLimit = false) (h : (c.applyBlock file b).errors = c.errors) :
    ∃ e', Edit.applyAll c.table b.edits e = .ok e' := by
  obtain ⟨hsettings, _, _, hfinished⟩ := @errors_applyBlock c file x e b hplain hname he
  have hcount := hfinished ((isOverLimit_congr h hsettings).trans hlimit)
  exact Edit.failures_eq_zero.mp (by omega)

/-- What a block makes of its entity when one of its edits has failed comes from those of
its selections that are for the entity. -/
theorem applyBlock_failed {b : Block} (hname : c.table.lookupType? b.name = some x)
    (he : c.table.entity? x = some e)
    (h : c.errors < (c.applyBlock file b.withoutSelections).errors) :
    ∃ e', (c.applyBlock file b).table.entity? x = some e' ∧
      e.EditedBy c.table (fun edit => ∃ a ∈ b.actions, ∃ s, a.effect = .select s ∧
        s.IsFor c.table x ∧ edit = s.edit) e' := by
  have htable := table_applyBlock_of_lt b.isPlain_withoutSelections h
  have hbefore : c.table.Edited (fun y edit => ∃ a ∈ b.actions, ∃ s, a.effect = .select s ∧
      s.IsFor c.table y ∧ edit = s.edit) (c.applyBlock file b.withoutSelections).table := by
    rw [htable]
    exact .refl c.table
  rw [applyBlock_eq hname he]
  refine (applySelections_edited hbefore ?_).entities x e he
  exact fun a ha s hs y hy => ⟨a, ha, s, hs, hy, rfl⟩

/-- A block is applied as a unit, its selections apart.  They run behind its edits.  If one of
the edits has failed, then none is made, and the entity stays as it was unless a selection is
for it.  If none has failed, then all of them are made. -/
theorem applyBlock_unit {b : Block} (hname : c.table.lookupType? b.name = some x)
    (he : c.table.entity? x = some e) :
    c.applyBlock file b =
        (c.applyBlock file b.withoutSelections).applySelections file b.actions ∧
      (c.errors < (c.applyBlock file b.withoutSelections).errors →
        (c.applyBlock file b.withoutSelections).table = c.table ∧
        (∃ e', (c.applyBlock file b).table.entity? x = some e' ∧
          e.EditedBy c.table (fun edit => ∃ a ∈ b.actions, ∃ s, a.effect = .select s ∧
            s.IsFor c.table x ∧ edit = s.edit) e') ∧
        ((∀ a ∈ b.actions, ∀ s, a.effect = .select s → ¬ s.IsFor c.table x) →
          (c.applyBlock file b).table.entity? x = some e)) ∧
      (c.isOverLimit = false → (c.applyBlock file b.withoutSelections).errors = c.errors →
        ∃ e', Edit.applyAll c.table b.edits e = .ok e' ∧
          c.applyBlock file b.withoutSelections = { c with table := c.table.set x e' }) := by
  refine ⟨applyBlock_eq hname he, fun h => ?_, fun hlimit h => ?_⟩
  · obtain ⟨e', he', hedited⟩ := applyBlock_failed hname he h
    refine ⟨table_applyBlock_of_lt b.isPlain_withoutSelections h, ⟨e', he', hedited⟩, ?_⟩
    intro hnone
    obtain rfl := hedited.eq_of_none fun edit ⟨a, ha, s, hs, hfor, _⟩ => hnone a ha s hs hfor
    exact he'
  · obtain ⟨e', hall⟩ := applyAll_of_errors_eq b.isPlain_withoutSelections hname he hlimit h
    refine ⟨e', b.edits_withoutSelections ▸ hall, ?_⟩
    exact applyBlock_of_applyAll b.isPlain_withoutSelections hname he hlimit hall

/-- The interface `Node`. -/
def node : Entity := .interface { identity := .ofIdl "Node" "web" ⟨"node.idl", 1⟩ }

/-- A compilation with no other declaration. -/
def nodeOnly : Compilation :=
  { table := { slots := #[{ entity := node }], names := Register.empty.put "Node" (.type ⟨0⟩) } }

/-- The block of `Node` with the lines `.name = Leaf` and `.prefix = a`.  An interface has no
prefix. -/
def prefixedLeaf : Block :=
  { name := "Node"
    line := 1
    actions := [⟨.edit (.setProperty "name" "Leaf"), 2⟩, ⟨.edit (.setProperty "prefix" "a"), 3⟩] }

theorem applyBlock_unit_prefixedLeaf :
    nodeOnly.errors < (nodeOnly.applyBlock "node.tr" prefixedLeaf.withoutSelections).errors ∧
      (nodeOnly.applyBlock "node.tr" prefixedLeaf).table.entity? ⟨0⟩ = some node := by
  have herrors : nodeOnly.errors <
      (nodeOnly.applyBlock "node.tr" prefixedLeaf.withoutSelections).errors := by decide +kernel
  have hnone : ∀ a ∈ prefixedLeaf.actions, ∀ s, a.effect = .select s →
      ¬ s.IsFor nodeOnly.table ⟨0⟩ := by
    intro a ha s hs
    simp only [prefixedLeaf, List.mem_cons, List.not_mem_nil, or_false] at ha
    rcases ha with rfl | rfl <;> cases hs
  have hname : nodeOnly.table.lookupType? prefixedLeaf.name = some ⟨0⟩ := by decide
  obtain ⟨_, hfailed, _⟩ := @applyBlock_unit nodeOnly "node.tr" ⟨0⟩ node prefixedLeaf hname rfl
  exact ⟨herrors, (hfailed herrors).2.2 hnone⟩

/-- The block of `Node` with the lines `.name = Leaf` and `@on any . .prefix = a`. -/
def prefixedByPattern : Block :=
  { name := "Node"
    line := 1
    actions :=
      [⟨.edit (.setProperty "name" "Leaf"), 2⟩,
      ⟨.select
        { filter := .any
          pattern := { text := ".", expr := .one (.compl (.range '\n' '\n')) }
          edit := .setProperty "prefix" "a" }, 3⟩] }

/-- A block with an error can change its entity, if the error is that of a selection. -/
theorem exists_block_not_unit :
    ∃ (c : Compilation) (file : String) (b : Block) (x : EntityId) (e : Entity),
      c.table.lookupType? b.name = some x ∧ c.table.entity? x = some e ∧
        c.errors < (c.applyBlock file b).errors ∧
        (c.applyBlock file b).table.entity? x ≠ some e := by
  refine ⟨nodeOnly, "node.tr", prefixedByPattern, ⟨0⟩, node, by decide, rfl, by decide +kernel, ?_⟩
  intro h
  have hname : ((nodeOnly.applyBlock "node.tr" prefixedByPattern).table.entity? ⟨0⟩).map
      (·.identity.name) = some "Leaf" := by decide +kernel
  rw [h] at hname
  exact absurd hname (by decide)

end Compilation

end IdlModel
