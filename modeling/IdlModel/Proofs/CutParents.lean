import IdlModel.Proofs.LinkRun

/-!
# Cut parents

What the linker does to parents, whatever else it finds wrong.

*Unlinked tables.*  Before linking, nothing is in use and no parent is a handle.  A
parent is then one that is *declared*: an entity of the same kind that is named.

*Cutting.*  While the linker runs, each entity has the parent it had before or, if it
was on a cycle, perhaps none.  Not more than one parent is cut off on each cycle, and
every cut was reported.  An entity in use is on no cycle any more: `Cutting`.

*Onward.*  A later state keeps the parents of the entities in use.  If there are not
too many errors, the parents of those that have come into use are in use too.
-/

namespace IdlModel

open Relation (ReflTransGen TransGen)

/-! ## Parents in a table -/

theorem Entity.parent?_setParent_none (e : Entity) : (e.setParent none).parent? = none := by
  cases e <;> rfl

namespace SymbolTable

variable {t t' t'' : SymbolTable} {x y : EntityId} {e : Entity}

/-- The reference to the parent of an entity. -/
def parentRef? (t : SymbolTable) (x : EntityId) : Option TypeRef :=
  (t.entity? x).bind Entity.parent?

theorem parentRef?_eq (he : t.entity? x = some e) : t.parentRef? x = e.parent? := by
  rw [parentRef?, he, Option.bind_some]

/-- The parent of an entity depends on the reference to it, on names and on kinds. -/
theorem parentOf?_eq_bind : t.parentOf? x = (t.parentRef? x).bind fun
    | .unlinked name => (t.lookupType? name).filter (t.kind? · == t.kind? x)
    | parent => parent.entity? := by
  cases he : t.entity? x with
  | none => simp only [parentOf?, parentRef?, he, Option.bind_none, Option.bind_eq_bind]
  | some e =>
      rw [parentOf?_eq he, parentRef?_eq he]
      refine Option.bind_congr fun p _ => ?_
      cases p with
      | unlinked name => simp only [kind?_eq he]
      | _ => rfl

theorem SameShape.parentOf?_eq (h : t.SameShape t') (hx : t'.parentRef? x = t.parentRef? x) :
    t'.parentOf? x = t.parentOf? x := by
  rw [parentOf?_eq_bind, parentOf?_eq_bind, hx, h.lookupType?_eq]
  simp only [h.kinds]

theorem parentRef?_mark (t : SymbolTable) (x y : EntityId) :
    (t.mark x).parentRef? y = t.parentRef? y := by
  rw [parentRef?, parentRef?, entity?_mark]

theorem parentRef?_modify_of_ne (t : SymbolTable) (h : y ≠ x) (f : Entity → Entity) :
    (t.modify x f).parentRef? y = t.parentRef? y := by
  rw [parentRef?, parentRef?, t.entity?_modify_of_ne h]

/-- An entity has the parent that is put in the place of another one. -/
theorem parentOf?_modify_setParent {p : TypeRef} (he : t.entity? x = some e)
    (hp : e.parent? = some p) (q : Option EntityId) (fields : List Field) :
    (t.modify x fun e => (e.setParent q).setInherited fields).parentOf? x = q := by
  rw [parentOf?_eq (entity?_modify_self he _), Entity.parent?_setInherited]
  cases q with
  | none => rw [Entity.parent?_setParent_none, Option.bind_none]
  | some y =>
      rw [Entity.parent?_setParent hp]
      rfl

/-! ### Unlinked tables -/

/-- Nothing in a table is linked yet: nothing is in use, and no parent is a handle. -/
structure Unlinked (t : SymbolTable) : Prop where
  unused : ∀ x, t.isInUse x = false
  parent : ∀ x p, t.parentRef? x = some p → p.entity? = none

/-- An entity names another one of its kind as its parent. -/
def DeclaresParent (t : SymbolTable) (x y : EntityId) : Prop :=
  ∃ e name, t.entity? x = some e ∧ e.parent? = some (.unlinked name) ∧
    t.lookupType? name = some y ∧ t.kind? y = some e.kind

theorem Unlinked.hasParent_iff (h : t.Unlinked) : t.HasParent x y ↔ t.DeclaresParent x y := by
  unfold HasParent
  constructor
  · intro hparent
    obtain ⟨e, he⟩ := entity?_of_lt (HasParent.lt hparent)
    rw [parentOf?_eq he] at hparent
    obtain ⟨p, hp, hfound⟩ := Option.bind_eq_some_iff.mp hparent
    have hhandle := h.parent x p ((parentRef?_eq he).trans hp)
    split at hfound
    next name =>
      obtain ⟨hlookup, hkind⟩ := Option.filter_eq_some_iff.mp hfound
      exact ⟨e, name, he, hp, hlookup, beq_iff_eq.mp hkind⟩
    next => cases hhandle.symm.trans hfound
  · rintro ⟨e, name, he, hp, hlookup, hkind⟩
    rw [parentOf?_eq he, hp, Option.bind_some]
    exact Option.filter_eq_some_iff.mpr ⟨hlookup, beq_iff_eq.mpr hkind⟩

theorem Unlinked.hasParent_eq (h : t.Unlinked) : t.HasParent = t.DeclaresParent := by
  funext x y
  exact propext h.hasParent_iff

/-- A declared parent has a place. -/
theorem Unlinked.lt_of_hasParent (h : t.Unlinked) (hparent : t.HasParent x y) :
    y.index < t.size := by
  obtain ⟨_, _, _, _, _, hkind⟩ := h.hasParent_iff.mp hparent
  obtain ⟨_, he, _⟩ := (t.kind?_eq_some y).mp hkind
  exact lt_of_entity? he

theorem Declared.unlinked (h : t.Declared) : t.Unlinked := by
  refine ⟨h.unused, fun x p hp => ?_⟩
  obtain ⟨e, he, hp⟩ := Option.bind_eq_some_iff.mp hp
  obtain ⟨name, rfl⟩ := (h.entities x e he).parent p hp
  rfl

end SymbolTable

namespace Linker

/-! ## Reports of cycles -/

/-- The number of cycles that were reported. -/
def cycles (l : Linker) : Nat :=
  l.compilation.log.entries.countP fun d => d.issue.isInheritanceCycle

theorem cycles_add (l : Linker) (d : Diagnostic) :
    (l.add d).cycles = l.cycles + if d.issue.isInheritanceCycle then 1 else 0 := by
  show (l.compilation.log.entries.push d).countP _ = _
  rw [Array.countP_push]
  rfl

/-- More errors are not fewer than too many. -/
theorem isOverLimit_of_add {l : Linker} {d : Diagnostic}
    (h : (l.add d).compilation.isOverLimit = false) : l.compilation.isOverLimit = false := by
  have hcount : (l.add d).compilation.log.errorCount =
      l.compilation.log.errorCount + if d.isError then 1 else 0 := Log.errorCount_add _ d
  simp only [Compilation.isOverLimit, decide_eq_false_iff_not] at h ⊢
  have hsettings : (l.add d).compilation.settings = l.compilation.settings := rfl
  rw [hcount, hsettings] at h
  omega

variable {l l' l'' : Linker} {id : EntityId} {e : Entity} {p : TypeRef}

/-- All that was done is to report something that is no cycle. -/
structure Remarks (l l' : Linker) : Prop where
  table : l'.table = l.table
  cycles : l'.cycles = l.cycles
  limit : l'.compilation.isOverLimit = false → l.compilation.isOverLimit = false

theorem Remarks.refl (l : Linker) : Remarks l l := ⟨rfl, rfl, fun h => h⟩

theorem remarks_add (l : Linker) {d : Diagnostic} (h : d.issue.isInheritanceCycle = false) :
    Remarks l (l.add d) := by
  refine ⟨rfl, ?_, isOverLimit_of_add⟩
  rw [cycles_add, h]
  rfl

theorem remarks_report (l : Linker) {issue : Issue} (h : issue.isInheritanceCycle = false)
    (at_ : Location) : Remarks l ((report issue at_).run l).2 :=
  remarks_add l (d := { issue, location := some at_ }) h

/-! ## Resolving a parent -/

/-- The parent that is found is that of the table. -/
theorem resolveParent_run (he : l.table.entity? id = some e) (hp : e.parent? = some p) :
    ∃ l₁, (resolveParent e p).run l = (l.table.parentOf? id, l₁) ∧ Remarks l l₁ := by
  rw [SymbolTable.parentOf?_eq he, hp, Option.bind_some]
  cases p with
  | unlinked name =>
      unfold resolveParent
      rw [run_get_bind]
      have hwrong : (wrongParent e.kind e.key name).isInheritanceCycle = false := by
        unfold wrongParent
        split <;> rfl
      have hunresolved :
          (unresolvedDiagnostic l.table name e.source).issue.isInheritanceCycle = false := by
        rw [issue_unresolvedDiagnostic]
        rfl
      cases hsymbol : l.table.lookup? name with
      | none =>
          simp only [SymbolTable.lookupType?, hsymbol]
          exact ⟨_, rfl, remarks_add l hunresolved⟩
      | some symbol =>
          cases symbol with
          | type y =>
              simp only [SymbolTable.lookupType?, hsymbol, Option.filter_some, beq_iff_eq]
              by_cases hkind : l.table.kind? y = some e.kind
              · rw [if_pos hkind]
                exact ⟨l, rfl, .refl l⟩
              · rw [if_neg hkind]
                exact ⟨_, rfl, remarks_report l hwrong e.source⟩
          | mixin _ =>
              simp only [SymbolTable.lookupType?, hsymbol]
              exact ⟨_, rfl, remarks_report l hwrong e.source⟩
          | typedef _ =>
              simp only [SymbolTable.lookupType?, hsymbol]
              exact ⟨_, rfl, remarks_report l hwrong e.source⟩
  | _ => exact ⟨l, rfl, .refl l⟩

/-- A parent is cut off if the entity is on a cycle, and this is reported. -/
theorem cutCycle_run {y : EntityId} (h : l.table.HasParent id y) :
    ¬ l.table.OnCycle id ∧ (cutCycle e id (some y)).run l = (some y, l) ∨
      l.table.OnCycle id ∧ ∃ at_, (cutCycle e id (some y)).run l =
        (none, l.add { issue := .inheritanceCycle e.key, location := at_ }) := by
  unfold cutCycle
  dsimp only
  rw [run_get_bind, h.onCycle_iff]
  by_cases hmet : y = id ∨ id ∈ l.table.ancestors y
  · rw [if_pos (by simpa using hmet)]
    exact .inr ⟨hmet, _, rfl⟩
  · rw [if_neg (by simpa using hmet)]
    exact .inl ⟨hmet, rfl⟩

/-- What becomes of a parent. -/
structure ParentLinked (l : Linker) (id : EntityId) (l' : Linker) : Prop where
  shape : l.table.SameShape l'.table
  used : ∀ x, l'.table.isInUse x = l.table.isInUse x
  others : ∀ x, x ≠ id → l'.table.parentRef? x = l.table.parentRef? x
  limit : l'.compilation.isOverLimit = false → l.compilation.isOverLimit = false
  outcome : ¬ l.table.OnCycle id ∧ l'.table.parentOf? id = l.table.parentOf? id ∧
      l'.cycles = l.cycles ∨
    l.table.OnCycle id ∧ l'.table.parentOf? id = none ∧ l'.cycles = l.cycles + 1

/-- An entity is given the parent that was found or, on a cycle, none. -/
theorem parentLinked_put (l₂ : Linker) {q : Option EntityId} (he : l.table.entity? id = some e)
    (hp : e.parent? = some p) (fields : List Field) (htable : l₂.table = l.table)
    (hlimit : l₂.compilation.isOverLimit = false → l.compilation.isOverLimit = false)
    (houtcome : ¬ l.table.OnCycle id ∧ q = l.table.parentOf? id ∧ l₂.cycles = l.cycles ∨
      l.table.OnCycle id ∧ q = none ∧ l₂.cycles = l.cycles + 1) :
    let put := l₂.withTable
      (l₂.table.modify id fun e => (e.setParent q).setInherited fields)
    put.table.parentOf? id = q ∧ ParentLinked l id put := by
  intro put
  have hput : put.table = l.table.modify id fun e => (e.setParent q).setInherited fields := by
    rw [← htable]
    rfl
  have hq : put.table.parentOf? id = q := by
    rw [hput]
    exact SymbolTable.parentOf?_modify_setParent he hp q fields
  have hkind : ∀ e : Entity, ((e.setParent q).setInherited fields).kind = e.kind := by simp
  refine ⟨hq, ?_, fun x => ?_, fun x hx => ?_, hlimit, ?_⟩
  · rw [hput]
    exact SymbolTable.sameShape_modify _ id hkind
  · rw [hput, SymbolTable.isInUse_modify]
  · rw [hput, SymbolTable.parentRef?_modify_of_ne _ hx]
  · rw [hq]
    exact houtcome

/-- The answer is what became of the parent. -/
theorem linkParent_run (he : l.table.entity? id = some e) :
    ∃ l', (linkParent id).run l = (l'.table.parentOf? id, l') ∧ ParentLinked l id l' := by
  have hparentOf := SymbolTable.parentOf?_eq he
  have hacyclic : l.table.parentOf? id = none → ¬ l.table.OnCycle id := by
    intro hnone hcycle
    obtain ⟨y, hy⟩ := hcycle.exists_hasParent
    cases hnone.symm.trans hy
  unfold linkParent
  rw [run_get_bind]
  simp only [he]
  cases hp : e.parent? with
  | none =>
      rw [hp, Option.bind_none] at hparentOf
      refine ⟨l, by rw [hparentOf]; rfl, .refl _, fun _ => rfl, fun _ _ => rfl, fun h => h, ?_⟩
      exact .inl ⟨hacyclic hparentOf, rfl, rfl⟩
  | some p =>
      obtain ⟨l₁, hresolve, hremarks⟩ := resolveParent_run he hp
      dsimp only
      rw [run_bind, hresolve, run_bind]
      dsimp only
      cases hparent : l.table.parentOf? id with
      | none =>
          obtain ⟨hq, hlinked⟩ := parentLinked_put l₁ he hp [] hremarks.table hremarks.limit
            (.inl ⟨hacyclic hparent, hparent.symm, hremarks.cycles⟩)
          exact ⟨_, by rw [hq]; rfl, hlinked⟩
      | some y =>
          have hy : l₁.table.HasParent id y := by
            rw [hremarks.table]
            exact hparent
          have hcut := cutCycle_run (e := e) hy
          rw [hremarks.table] at hcut
          rcases hcut with ⟨hcycle, hrun⟩ | ⟨hcycle, at_, hrun⟩
          · obtain ⟨hq, hlinked⟩ := parentLinked_put l₁ he hp (l₁.table.lineageFields y)
              hremarks.table hremarks.limit (.inl ⟨hcycle, hparent.symm, hremarks.cycles⟩)
            rw [hrun]
            exact ⟨_, by rw [hq]; rfl, hlinked⟩
          · obtain ⟨hq, hlinked⟩ := parentLinked_put
              (l₁.add { issue := .inheritanceCycle e.key, location := at_ }) he hp [] hremarks.table
              (fun h => hremarks.limit (isOverLimit_of_add h))
              (.inr ⟨hcycle, rfl, by rw [cycles_add, hremarks.cycles]; rfl⟩)
            rw [hrun]
            exact ⟨_, by rw [hq]; rfl, hlinked⟩

/-! ## Cutting -/

section Cutting

variable (t₀ : SymbolTable) (n : Nat)

/-- An entity has not the parent that it had before. -/
def IsCut (t : SymbolTable) (x : EntityId) : Prop := t.parentOf? x ≠ t₀.parentOf? x

/-- The entities that have not the parent they had before. -/
def cutOff (t : SymbolTable) : List EntityId :=
  t₀.ids.filter fun x => t.parentOf? x != t₀.parentOf? x

/-- What holds while the linker runs.  `t₀` is the table before, and `n` cycles were
reported before. -/
structure Cutting (l : Linker) : Prop where
  shape : t₀.SameShape l.table
  unused : ∀ x, l.table.isInUse x = false → l.table.parentRef? x = t₀.parentRef? x
  cut : ∀ x, IsCut t₀ l.table x → l.table.parentOf? x = none ∧ t₀.OnCycle x
  once : ∀ x y, IsCut t₀ l.table x → IsCut t₀ l.table y → TransGen t₀.HasParent x y → x = y
  free : ∀ x, l.table.isInUse x = true → ¬ l.table.OnCycle x
  counted : l.cycles = n + (cutOff t₀ l.table).length

end Cutting

variable {t₀ : SymbolTable} {n : Nat} {x y : EntityId}

theorem Cutting.start (ht₀ : l.table.Unlinked) : Cutting l.table l.cycles l := by
  have hsame : ∀ x, ¬ IsCut l.table l.table x := fun x hx => hx rfl
  constructor
  · exact .refl _
  · exact fun _ _ => rfl
  · exact fun x hx => absurd hx (hsame x)
  · exact fun x _ hx _ _ => absurd hx (hsame x)
  · intro x hx
    cases (ht₀.unused x).symm.trans hx
  · have hnone : cutOff l.table l.table = [] := by simp [cutOff]
    rw [hnone]
    rfl

theorem Cutting.isInUse_of_isCut (h : Cutting t₀ n l) (hx : IsCut t₀ l.table x) :
    l.table.isInUse x = true := by
  rw [← Bool.not_eq_false]
  exact fun hfree => hx (h.shape.parentOf?_eq (h.unused x hfree))

/-- The parents that are left are the ones before. -/
theorem Cutting.hasParent (h : Cutting t₀ n l) (hxy : l.table.HasParent x y) :
    t₀.HasParent x y ∧ ¬ IsCut t₀ l.table x := by
  have hkept : ¬ IsCut t₀ l.table x := by
    intro hx
    cases (h.cut x hx).1.symm.trans hxy
  exact ⟨(not_not.mp hkept).symm.trans hxy, hkept⟩

theorem Cutting.onCycle (h : Cutting t₀ n l) (hx : l.table.OnCycle x) : t₀.OnCycle x :=
  TransGen.mono (fun _ _ hxy => (h.hasParent hxy).1) x x hx

/-- On a cycle that is left no parent is cut off. -/
theorem Cutting.not_isCut (h : Cutting t₀ n l) (hx : l.table.OnCycle x)
    (hy : ReflTransGen t₀.HasParent x y) : ¬ IsCut t₀ l.table y := by
  suffices hleft : ReflTransGen l.table.HasParent x y by
    obtain ⟨z, hz⟩ := (hx.of_reached hleft).exists_hasParent
    exact (h.hasParent hz).2
  induction hy with
  | refl => exact .refl
  | tail _ hparent ih =>
      obtain ⟨z, hz⟩ := (hx.of_reached ih).exists_hasParent
      obtain rfl := (h.hasParent hz).1.unique hparent
      exact ih.tail hz

/-- A cycle on which no parent is cut off is left. -/
theorem Cutting.exists_isCut (hused : t₀.OnCycle x) (hx : ¬ l.table.OnCycle x) :
    ∃ y, ReflTransGen t₀.HasParent x y ∧ IsCut t₀ l.table y := by
  by_contra hnone
  have hkept : ∀ y, ReflTransGen t₀.HasParent x y → l.table.parentOf? y = t₀.parentOf? y :=
    fun y hy => not_not.mp fun hcut => hnone ⟨y, hy, hcut⟩
  refine hx ?_
  have hwalk : ∀ y, TransGen t₀.HasParent x y → TransGen l.table.HasParent x y := by
    intro y hy
    induction hy with
    | single hparent => exact .single ((hkept x .refl).trans hparent)
    | tail hreached hparent ih =>
        exact ih.tail ((hkept _ hreached.to_reflTransGen).trans hparent)
  exact hwalk x hused

theorem cutOff_congr {t t' : SymbolTable} (h : ∀ x, t'.parentOf? x = t.parentOf? x) :
    cutOff t₀ t' = cutOff t₀ t := by
  simp only [cutOff, h]

/-- As long as parents and reports of cycles stay, only marks matter. -/
theorem Cutting.of_parents (h : Cutting t₀ n l) (hshape : l.table.SameShape l'.table)
    (hparents : ∀ x, l'.table.parentOf? x = l.table.parentOf? x) (hcycles : l'.cycles = l.cycles)
    (hunused : ∀ x, l'.table.isInUse x = false → l'.table.parentRef? x = t₀.parentRef? x)
    (hfree : ∀ x, l'.table.isInUse x = true → ¬ l.table.OnCycle x) : Cutting t₀ n l' := by
  have hcut : ∀ x, IsCut t₀ l'.table x ↔ IsCut t₀ l.table x := fun x => by
    rw [IsCut, IsCut, hparents]
  refine ⟨h.shape.trans hshape, hunused, fun x hx => ?_, fun x y hx hy => ?_, fun x hx => ?_, ?_⟩
  · rw [hparents]
    exact h.cut x ((hcut x).mp hx)
  · exact h.once x y ((hcut x).mp hx) ((hcut y).mp hy)
  · rw [SymbolTable.onCycle_congr hparents]
    exact hfree x hx
  · rw [hcycles, cutOff_congr hparents]
    exact h.counted

/-! ### Coming into use -/

/-- An entity has come into use, and its parent is resolved. -/
structure Entering (l : Linker) (id : EntityId) (l' : Linker) : Prop where
  shape : l.table.SameShape l'.table
  used : ∀ x, l'.table.isInUse x = true ↔ x = id ∨ l.table.isInUse x = true
  others : ∀ x, x ≠ id → l'.table.parentRef? x = l.table.parentRef? x
  limit : l'.compilation.isOverLimit = false → l.compilation.isOverLimit = false
  unused : l.table.unused = l'.table.unused + 1
  outcome : ¬ l.table.OnCycle id ∧ l'.table.parentOf? id = l.table.parentOf? id ∧
      l'.cycles = l.cycles ∨
    l.table.OnCycle id ∧ l'.table.parentOf? id = none ∧ l'.cycles = l.cycles + 1

theorem enter_run (hlt : id.index < l.table.size) (hfree : l.table.isInUse id = false) :
    ∃ l', (linkParent id).run ((enter id).run l).2 = (l'.table.parentOf? id, l') ∧
      Entering l id l' := by
  generalize hl₁ : ((enter id).run l).2 = l₁
  have htable : l₁.table = l.table.mark id := by rw [← hl₁]; rfl
  have hcompilation : l₁.compilation.log = l.compilation.log ∧
      l₁.compilation.settings = l.compilation.settings := by
    rw [← hl₁]
    exact ⟨rfl, rfl⟩
  have hcycles : l₁.cycles = l.cycles := by rw [cycles, hcompilation.1]; rfl
  have hshape : l.table.SameShape l₁.table := htable ▸ l.table.sameShape_mark id
  have hparents : ∀ x, l₁.table.parentOf? x = l.table.parentOf? x := fun x => by
    rw [htable, SymbolTable.parentOf?_mark]
  obtain ⟨e, he⟩ := SymbolTable.entity?_of_lt hlt
  obtain ⟨l', hrun, hlinked⟩ := linkParent_run (l := l₁) (e := e) (by
    rw [htable, SymbolTable.entity?_mark, he])
  refine ⟨l', hrun, hshape.trans hlinked.shape, fun x => ?_, fun x hx => ?_, fun h => ?_, ?_, ?_⟩
  · rw [hlinked.used, htable, SymbolTable.isInUse_mark hlt]
  · rw [hlinked.others x hx, htable, SymbolTable.parentRef?_mark]
  · have hlimit := hlinked.limit h
    rwa [Compilation.isOverLimit, hcompilation.1, hcompilation.2] at hlimit
  · rw [SymbolTable.unused_mark hlt hfree, ← htable]
    congr 1
    exact (SymbolTable.unused_congr hlinked.shape.size hlinked.used).symm
  · have houtcome := hlinked.outcome
    rwa [SymbolTable.onCycle_congr hparents, hparents, hcycles] at houtcome

theorem Entering.parentOf?_eq (h : Entering l id l') (hx : x ≠ id) :
    l'.table.parentOf? x = l.table.parentOf? x :=
  h.shape.parentOf?_eq (h.others x hx)

/-- An entity that comes into use either keeps its parent and was on no cycle, or it
is the only one on its cycle that loses it. -/
theorem Cutting.enter (h : Cutting t₀ n l) (hfree : l.table.isInUse id = false)
    (hentering : Entering l id l') : Cutting t₀ n l' := by
  have hunused : ∀ x, l'.table.isInUse x = false → l'.table.parentRef? x = t₀.parentRef? x := by
    intro x hx
    rw [← Bool.not_eq_true, hentering.used, not_or, Bool.not_eq_true] at hx
    rw [hentering.others x hx.1, h.unused x hx.2]
  have hbefore : l.table.parentOf? id = t₀.parentOf? id :=
    h.shape.parentOf?_eq (h.unused id hfree)
  have hshape := h.shape.trans hentering.shape
  rcases hentering.outcome with ⟨hcycle, hparent, hcycles⟩ | ⟨hcycle, hparent, hcycles⟩
  · have hparents : ∀ x, l'.table.parentOf? x = l.table.parentOf? x := by
      intro x
      by_cases hx : x = id
      · rw [hx, hparent]
      · exact hentering.parentOf?_eq hx
    refine h.of_parents hentering.shape hparents hcycles hunused fun x hx => ?_
    rcases (hentering.used x).mp hx with rfl | hx
    · exact hcycle
    · exact h.free x hx
  · obtain ⟨y, hy⟩ := hcycle.exists_hasParent
    have hcut : ∀ x, IsCut t₀ l'.table x ↔ x = id ∨ IsCut t₀ l.table x := by
      intro x
      by_cases hx : x = id
      · rw [hx, IsCut, hparent, ← hbefore, hy]
        simp
      · rw [IsCut, hentering.parentOf?_eq hx, IsCut]
        simp [hx]
    have hleft : ∀ x z, l'.table.HasParent x z → x ≠ id ∧ l.table.HasParent x z := by
      intro x z hxz
      have hx : x ≠ id := by
        rintro rfl
        cases hparent.symm.trans hxz
      exact ⟨hx, (hentering.parentOf?_eq hx).symm.trans hxz⟩
    have hcycle₀ := h.onCycle hcycle
    refine ⟨hshape, hunused, fun x hx => ?_, fun x z hx hz hxz => ?_, fun x hx hback => ?_, ?_⟩
    · rcases (hcut x).mp hx with rfl | hx
      · exact ⟨hparent, hcycle₀⟩
      · have hne : x ≠ id := by
          rintro rfl
          exact hx hbefore
        rw [hentering.parentOf?_eq hne]
        exact h.cut x hx
    · rcases (hcut x).mp hx with rfl | hx
      · rcases (hcut z).mp hz with rfl | hz
        · rfl
        · exact absurd hz (h.not_isCut hcycle hxz.to_reflTransGen)
      · rcases (hcut z).mp hz with rfl | hz
        · have hback := (h.cut x hx).2.leads_back hxz.to_reflTransGen
          exact absurd hx (h.not_isCut hcycle hback.to_reflTransGen)
        · exact h.once x z hx hz hxz
    · obtain ⟨z, hz⟩ := hback.exists_hasParent
      have hused := ((hentering.used x).mp hx).resolve_left (hleft x z hz).1
      exact h.free x hused (TransGen.mono (fun _ _ hxz => (hleft _ _ hxz).2) x x hback)
    · rw [hcycles, h.counted, Nat.add_assoc]
      congr 1
      rw [cutOff, cutOff, ← List.countP_eq_length_filter, ← List.countP_eq_length_filter]
      refine (SymbolTable.countP_eq_succ (a := id) ?_ ?_ (fun x hx => ?_) t₀.nodup_ids ?_).symm
      · simpa [IsCut] using (hcut id).mpr (.inl rfl)
      · simp [hbefore]
      · rw [hentering.parentOf?_eq hx]
      · rw [SymbolTable.mem_ids, ← h.shape.size]
        exact SymbolTable.HasParent.lt hy

/-! ## Onward -/

/-- The parents of what has come into use are in use too. -/
def ParentsUsed (l l' : Linker) : Prop :=
  ∀ x y, l'.table.isInUse x = true → l.table.isInUse x = false → l'.table.HasParent x y →
    l'.table.isInUse y = true

/-- A state and a later one. -/
structure Onward (l l' : Linker) : Prop where
  used : ∀ x, l.table.isInUse x = true → l'.table.isInUse x = true
  kept : ∀ x, l.table.isInUse x = true → l'.table.parentOf? x = l.table.parentOf? x
  limit : l'.compilation.isOverLimit = false → l.compilation.isOverLimit = false
  parents : l'.compilation.isOverLimit = false → ParentsUsed l l'

theorem Onward.refl (l : Linker) : Onward l l := by
  refine ⟨fun _ h => h, fun _ _ => rfl, fun h => h, fun _ x _ hx hx' => ?_⟩
  cases hx.symm.trans hx'

theorem ParentsUsed.trans (h : ParentsUsed l l') (hahead : Onward l' l'')
    (h' : ParentsUsed l' l'') : ParentsUsed l l'' := by
  intro x y hx hx' hparent
  cases hmid : l'.table.isInUse x with
  | false => exact h' x y hx hmid hparent
  | true => exact hahead.used y (h x y hmid hx' ((hahead.kept x hmid).symm.trans hparent))

theorem Onward.trans (h : Onward l l') (h' : Onward l' l'') : Onward l l'' where
  used x hx := h'.used x (h.used x hx)
  kept x hx := (h'.kept x (h.used x hx)).trans (h.kept x hx)
  limit hlimit := h.limit (h'.limit hlimit)
  parents hlimit := (h.parents (h'.limit hlimit)).trans h' (h'.parents hlimit)

/-- What matters for the parents of entities is as before. -/
structure SameParents (l l' : Linker) : Prop where
  shape : l.table.SameShape l'.table
  used : ∀ x, l'.table.isInUse x = l.table.isInUse x
  parents : ∀ x, l'.table.parentOf? x = l.table.parentOf? x
  unused : ∀ x, l.table.isInUse x = false → l'.table.parentRef? x = l.table.parentRef? x
  cycles : l'.cycles = l.cycles
  limit : l'.compilation.isOverLimit = false → l.compilation.isOverLimit = false

theorem SameParents.onward (h : SameParents l l') : Onward l l' := by
  refine ⟨fun x hx => (h.used x).trans hx, fun x _ => h.parents x, h.limit, fun _ x _ hx hx' => ?_⟩
  cases hx.symm.trans ((h.used x).trans hx')

theorem Cutting.congr (h : Cutting t₀ n l) (hsame : SameParents l l') : Cutting t₀ n l' := by
  refine h.of_parents hsame.shape hsame.parents hsame.cycles (fun x hx => ?_) fun x hx => ?_
  · rw [hsame.used] at hx
    exact (hsame.unused x hx).trans (h.unused x hx)
  · exact h.free x ((hsame.used x).symm.trans hx)

/-- A step that keeps cutting, as long as at most `budget` entities are not in use. -/
def Cuts (t₀ : SymbolTable) (n budget : Nat) (l l' : Linker) : Prop :=
  Cutting t₀ n l → l.table.unused ≤ budget → Cutting t₀ n l' ∧ Onward l l'

/-- No more entities are out of use later. -/
theorem Onward.unused_le (h : Onward l l') (hl : Cutting t₀ n l) (hl' : Cutting t₀ n l') :
    l'.table.unused ≤ l.table.unused :=
  SymbolTable.unused_le_unused (hl'.shape.size.trans hl.shape.size.symm) h.used

theorem follows_cuts (t₀ : SymbolTable) (n budget : Nat) : Follows (Cuts t₀ n budget) where
  refl l hl _ := ⟨hl, .refl l⟩
  trans l l' l'' h h' hl hbudget := by
    obtain ⟨hl', honward⟩ := h hl hbudget
    obtain ⟨hl'', honward'⟩ := h' hl' (Nat.le_trans (honward.unused_le hl hl') hbudget)
    exact ⟨hl'', honward.trans honward'⟩
  add l d hd hl _ := by
    have hsame : SameParents l (l.add d) :=
      ⟨.refl _, fun _ => rfl, fun _ => rfl, fun _ _ => rfl, (remarks_add l hd).cycles,
        isOverLimit_of_add⟩
    exact ⟨hl.congr hsame, hsame.onward⟩
  setTypedef l i type hl _ := by
    have hsame : SameParents l (l.withTable (l.table.setTypedef i type)) :=
      ⟨⟨rfl, rfl, fun _ => rfl⟩, fun _ => rfl, fun _ => rfl, fun _ _ => rfl, rfl, fun h => h⟩
    exact ⟨hl.congr hsame, hsame.onward⟩

end Linker

end IdlModel
