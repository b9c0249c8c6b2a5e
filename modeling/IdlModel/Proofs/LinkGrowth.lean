import IdlModel.Proofs.LinkState

/-!
# Growth of the linker

Where the actions of the linker lead.

*Types.*  To resolve a type the linker only visits entities, memoizes typedefs and
reports that something is wrong with a type.  A relation that holds along these
steps holds along the whole: `Follows.resolve`.

*Visits.*  Apart from that it takes entities into use, gives them their places and puts them
back with other types.  A relation that holds along all of it holds along a visit:
`Tracks.visit`.  No action of the linker takes an error back, and none changes the settings.
-/

namespace IdlModel

/-- Whether an issue is a cycle of parents. -/
def Issue.isInheritanceCycle : Issue → Bool
  | .inheritanceCycle _ => true
  | _ => false

namespace Linker

/-! ## Reports -/

/-- The linker with another diagnostic. -/
def add (l : Linker) (d : Diagnostic) : Linker := { l with compilation := l.compilation.add d }

theorem issue_unresolvedDiagnostic (t : SymbolTable) (name : String) (at_ : Location) :
    (unresolvedDiagnostic t name at_).issue = .unresolvedType name := by
  unfold unresolvedDiagnostic
  split
  · rfl
  · split <;> rfl

theorem errors_reportUnresolved (name : String) (at_ : Location) (l : Linker) :
    ((reportUnresolved name at_).run l).2.errors = l.errors + 1 := by
  show (l.compilation.log.add _).errorCount = _
  rw [Log.errorCount_add]
  congr 1
  simp [Diagnostic.isError, Diagnostic.severity, issue_unresolvedDiagnostic, Issue.severity]

theorem grows_report (issue : Issue) (at_ : Location) : Grows errors (report issue at_) :=
  fun l => l.compilation.errors_le_report issue at_

theorem not_clean_report {issue : Issue} (hissue : issue.severity = .error) (at_ : Location)
    (l : Linker) : ¬ ((report issue at_).run l).2.Clean :=
  Compilation.not_clean_report hissue l.compilation at_

theorem not_clean_reportUnresolved (name : String) (at_ : Location) (l : Linker) :
    ¬ ((reportUnresolved name at_).run l).2.Clean := by
  intro h
  exact Nat.succ_ne_zero _ ((errors_reportUnresolved name at_ l).symm.trans h)

/-! ## Types -/

/-- What a relation has to hold along, visits apart, to hold along the resolving of
types. -/
structure Follows (R : Linker → Linker → Prop) : Prop where
  refl : ∀ l, R l l
  trans : ∀ ⦃l l' l''⦄, R l l' → R l' l'' → R l l''
  add : ∀ l d, d.issue.isInheritanceCycle = false → R l (l.add d)
  setTypedef : ∀ l i type, R l (l.withTable (l.table.setTypedef i type))

section Types

variable {R : Linker → Linker → Prop}

theorem Follows.report (h : Follows R) {issue : Issue} (hissue : issue.isInheritanceCycle = false)
    (at_ : Location) : Leads R (report issue at_) := fun l => h.add l _ hissue

theorem Follows.reportUnresolved (h : Follows R) (name : String) (at_ : Location) :
    Leads R (reportUnresolved name at_) := fun l => by
  refine h.add l _ ?_
  rw [issue_unresolvedDiagnostic]
  rfl

theorem Follows.checkGeneric (h : Follows R) (at_ : Location) (t : TypeRef) :
    Leads R (checkGeneric at_ t) := by
  unfold Linker.checkGeneric
  split
  next =>
    split
    · exact .pure h.refl _
    · exact h.report rfl _
  next => exact .pure h.refl _

theorem Follows.resolveName (h : Follows R) {visit : EntityId → LinkM Unit}
    (hvisit : ∀ id, Leads R (visit id)) (at_ : Location)
    {expand : String → Nat → Typedef → LinkM TypeRef}
    (hexpand : ∀ name i d, Leads R (expand name i d)) (name : String) :
    Leads R (resolveName visit at_ expand name) := by
  unfold Linker.resolveName
  refine .get_bind fun l => ?_
  dsimp only
  split
  next id _ =>
    refine Leads.bind h.trans (hvisit id) (fun _ => .get_bind fun l => ?_) l
    split
    · exact h.refl _
    · exact h.refl _
  next =>
    split
    · exact hexpand _ _ _ l
    · exact h.refl _
  next => exact Leads.bind h.trans (h.reportUnresolved _ _) (fun _ => .pure h.refl _) l

theorem Follows.resolvePart (h : Follows R) {visit : EntityId → LinkM Unit}
    (hvisit : ∀ id, Leads R (visit id)) {onName : String → LinkM TypeRef}
    (honName : ∀ name, Leads R (onName name)) (t : TypeRef) :
    Leads R (resolvePart visit onName t) := by
  unfold Linker.resolvePart
  split
  next => exact .bind h.trans (hvisit _) fun _ => .pure h.refl _
  next => exact honName _
  next => exact .pure h.refl _

theorem Follows.memoize (h : Follows R) (index : Nat) (expanded : TypeRef) :
    Leads R (memoize index expanded) := by
  unfold Linker.memoize
  split
  · exact .pure h.refl _
  · exact .bind h.trans (.update fun l => h.setTypedef l _ _) fun _ => .pure h.refl _

/-- A relation that holds along visits holds along the resolving of a type. -/
theorem Follows.resolve (h : Follows R) {visit : EntityId → LinkM Unit}
    (hvisit : ∀ id, Leads R (visit id)) (at_ : Location) (budget : Nat) (opened : List String)
    (t : TypeRef) : Leads R (resolve visit at_ budget opened t) := by
  induction budget generalizing opened t with
  | zero =>
    rw [Linker.resolve]
    refine .rebuildM h.trans h.refl (h.checkGeneric at_) (h.resolvePart hvisit
      (h.resolveName hvisit at_ fun name _ d => ?_)) t
    split
    · exact .bind h.trans (h.report rfl _) fun _ => .pure h.refl _
    · exact .pure h.refl _
  | succ budget ih =>
    rw [Linker.resolve]
    refine .rebuildM h.trans h.refl (h.checkGeneric at_) (h.resolvePart hvisit
      (h.resolveName hvisit at_ fun name _ d => ?_)) t
    split
    · exact .bind h.trans (h.report rfl _) fun _ => .pure h.refl _
    · exact .bind h.trans (ih _ _) fun _ => h.memoize _ _

end Types

/-! ## Visits -/

/-- What a relation has to hold along to hold along a visit.  An entity is put back as it was
when it was taken, but for its types. -/
structure Tracks (R : Linker → Linker → Prop) : Prop where
  refl : ∀ l, R l l
  trans : ∀ ⦃l l' l''⦄, R l l' → R l' l'' → R l l''
  add : ∀ l d, R l (l.add d)
  setTypedef : ∀ l i type, R l (l.withTable (l.table.setTypedef i type))
  enter : ∀ l id, l.isDue id = true → R l ((enter id).run l).2
  place : ∀ l id parent fields,
    R l (l.withTable (l.table.modify id fun e => (e.setParent parent).setInherited fields))
  put : ∀ ⦃l l' id e e'⦄, R l l' → l.table.entity? id = some e → e'.blank = e.blank →
    R l (l'.withTable (l'.table.set id e'))

/-- What a relation has to hold along if it does not look at entities. -/
structure Spans (R : Linker → Linker → Prop) : Prop where
  refl : ∀ l, R l l
  trans : ∀ ⦃l l' l''⦄, R l l' → R l' l'' → R l l''
  add : ∀ l d, R l (l.add d)
  withTable : ∀ l t, R l (l.withTable t)
  enter : ∀ l id, R l ((enter id).run l).2

section Visits

variable {R : Linker → Linker → Prop}

theorem Spans.tracks (h : Spans R) : Tracks R where
  refl := h.refl
  trans := h.trans
  add := h.add
  setTypedef l _ _ := h.withTable l _
  enter l id _ := h.enter l id
  place l _ _ _ := h.withTable l _
  put _ l' _ _ _ hl _ _ := h.trans hl (h.withTable l' _)

theorem Tracks.follows (h : Tracks R) : Follows R where
  refl := h.refl
  trans := h.trans
  add l d _ := h.add l d
  setTypedef := h.setTypedef

theorem Tracks.report (h : Tracks R) (issue : Issue) (at_ : Location) :
    Leads R (report issue at_) := fun l => h.add l _

theorem Tracks.resolveParent (h : Tracks R) (e : Entity) (p : TypeRef) :
    Leads R (resolveParent e p) := by
  unfold Linker.resolveParent
  split
  next name =>
    refine .get_bind fun l => ?_
    dsimp only
    split
    next => exact Leads.bind h.trans (h.follows.reportUnresolved name _) (fun _ => .pure h.refl _) l
    next symbol _ =>
      split
      next => exact h.refl l
      next => exact Leads.bind h.trans (h.report _ _) (fun _ => .pure h.refl _) l
  next => exact .pure h.refl _

theorem Tracks.cutCycle (h : Tracks R) (e : Entity) (id : EntityId) (p : Option EntityId) :
    Leads R (cutCycle e id p) := by
  unfold Linker.cutCycle
  split
  next => exact .pure h.refl _
  next =>
    refine .get_bind fun l => ?_
    split
    · exact Leads.bind h.trans (h.report _ _) (fun _ => .pure h.refl _) l
    · exact h.refl l

theorem Tracks.linkParent (h : Tracks R) (id : EntityId) : Leads R (linkParent id) := by
  unfold Linker.linkParent
  refine .get_bind fun l => ?_
  split
  next => exact h.refl l
  next e _ =>
    split
    next => exact h.refl l
    next p _ =>
      refine Leads.bind h.trans (h.resolveParent e p) (fun p => ?_) l
      refine .bind h.trans (h.cutCycle e id p) fun p => ?_
      exact .bind h.trans (.update fun l => h.place l _ _ _) fun _ => .pure h.refl _

theorem Tracks.linkTypes (h : Tracks R) {visit : EntityId → LinkM Unit}
    (hvisit : ∀ id, Leads R (visit id)) (id : EntityId) : Leads R (linkTypes visit id) := by
  unfold Linker.linkTypes
  refine .get_bind fun l => ?_
  split
  next => exact h.refl l
  next e he =>
    have hwalk := Leads.mapTypesM h.trans h.refl
      (fun at_ t => h.follows.resolve hvisit at_ l.table.names.size [] t) e
    have hblank := (e.blank_mapTypesM
      fun at_ t => resolve visit at_ l.table.names.size [] t).run l
    exact h.put (hwalk l) he hblank

theorem Tracks.visitParent (h : Tracks R) {visit : EntityId → LinkM Unit}
    (hvisit : ∀ id, Leads R (visit id)) (parent : Option EntityId) :
    Leads R (visitParent visit parent) := by
  cases parent with
  | none => exact .pure h.refl _
  | some parent => exact hvisit parent

/-- What a visit does once its entity is in use. -/
theorem Tracks.entered (h : Tracks R) {visit : EntityId → LinkM Unit}
    (hvisit : ∀ id, Leads R (visit id)) (id : EntityId) :
    Leads R (do
      let parent ← Linker.linkParent id
      Linker.linkTypes visit id
      Linker.visitParent visit parent) :=
  .bind h.trans (h.linkParent id) fun parent =>
    .bind h.trans (h.linkTypes hvisit id) fun _ => h.visitParent hvisit parent

/-- A relation that holds along the single actions of the linker holds along a visit. -/
theorem Tracks.visit (h : Tracks R) (budget : Nat) (id : EntityId) :
    Leads R (Linker.visit budget id) := by
  induction budget generalizing id with
  | zero => exact .pure h.refl _
  | succ budget ih =>
    rw [Linker.visit]
    refine .get_bind fun l => ?_
    split
    next hdue => exact h.trans (h.enter l id hdue) (h.entered ih id _)
    next => exact h.refl l

end Visits

/-! ## Errors -/

theorem spans_errors : Spans fun l l' => l.errors ≤ l'.errors where
  refl l := Nat.le_refl l.errors
  trans _ _ _ := Nat.le_trans
  add l d := by
    show l.compilation.log.errorCount ≤ (l.compilation.log.add d).errorCount
    rw [Log.errorCount_add]
    exact Nat.le_add_right _ _
  withTable l _ := Nat.le_refl l.errors
  enter l _ := Nat.le_refl l.errors

theorem grows_checkGeneric (at_ : Location) (t : TypeRef) : Grows errors (checkGeneric at_ t) :=
  spans_errors.tracks.follows.checkGeneric at_ t

theorem grows_resolveName {visit : EntityId → LinkM Unit} (hvisit : ∀ id, Grows errors (visit id))
    (at_ : Location) {expand : String → Nat → Typedef → LinkM TypeRef}
    (hexpand : ∀ name i d, Grows errors (expand name i d)) (name : String) :
    Grows errors (resolveName visit at_ expand name) :=
  spans_errors.tracks.follows.resolveName hvisit at_ hexpand name

theorem grows_resolvePart {visit : EntityId → LinkM Unit} (hvisit : ∀ id, Grows errors (visit id))
    {onName : String → LinkM TypeRef} (honName : ∀ name, Grows errors (onName name)) (t : TypeRef) :
    Grows errors (resolvePart visit onName t) :=
  spans_errors.tracks.follows.resolvePart hvisit honName t

theorem grows_memoize (index : Nat) (expanded : TypeRef) : Grows errors (memoize index expanded) :=
  spans_errors.tracks.follows.memoize index expanded

theorem grows_resolve {visit : EntityId → LinkM Unit} (hvisit : ∀ id, Grows errors (visit id))
    (at_ : Location) (budget : Nat) (opened : List String) (t : TypeRef) :
    Grows errors (resolve visit at_ budget opened t) :=
  spans_errors.tracks.follows.resolve hvisit at_ budget opened t

theorem grows_cutCycle (e : Entity) (id : EntityId) (p : Option EntityId) :
    Grows errors (cutCycle e id p) := spans_errors.tracks.cutCycle e id p

theorem grows_linkTypes {visit : EntityId → LinkM Unit} (hvisit : ∀ id, Grows errors (visit id))
    (id : EntityId) : Grows errors (linkTypes visit id) := spans_errors.tracks.linkTypes hvisit id

theorem grows_visitParent {visit : EntityId → LinkM Unit} (hvisit : ∀ id, Grows errors (visit id))
    (parent : Option EntityId) : Grows errors (visitParent visit parent) :=
  spans_errors.tracks.visitParent hvisit parent

theorem grows_visit (budget : Nat) (id : EntityId) : Grows errors (visit budget id) :=
  spans_errors.tracks.visit budget id

/-! ## Settings -/

/-- The linker leaves the settings as they are. -/
theorem spans_settings : Spans fun l l' => l'.compilation.settings = l.compilation.settings where
  refl _ := rfl
  trans _ _ _ h h' := h'.trans h
  add _ _ := rfl
  withTable _ _ := rfl
  enter _ _ := rfl

end Linker

end IdlModel
