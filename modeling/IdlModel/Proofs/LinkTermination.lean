import Mathlib.Data.Finset.Card
import Mathlib.Data.Prod.Lex
import IdlModel.Proofs.Relinking

/-!
# Termination of the linker

The recursion of the linker without its budgets.

*Recursion.*  `Linker.Ends` is the recursion as a relation between a list of tasks, a state, the
types that the tasks give and the state behind them.  It has no budgets, so it says nothing of
a task that goes on for ever.

*Measure.*  `Linker.Calls` lists the calls that a task makes, each in its state.  Along a call
the `Linker.rank` gets smaller.  First come the entities that are not in use, then the typedefs
that are not being expanded, then the size of the type.

*Budgets.*  With enough budget the functions of the linker do what the recursion does.  So every
task ends, and in one way only.

*Ancestors.*  The loop from parent to parent is treated in the same way.  On each round one
entity more has been met.
-/

namespace IdlModel

/-- Whether a symbol is a typedef. -/
def Symbol.isTypedef : Symbol → Bool
  | .typedef _ => true
  | _ => false

/-! ## Ancestors -/

namespace SymbolTable

variable (t : SymbolTable) (start : EntityId)

/-- The loop that climbs from `current` to its parents, with the list of those that it finds.
It stops behind the first one that is `start` or occurred before. -/
inductive Climbs : List EntityId → EntityId → List EntityId → Prop
  | top {before : List EntityId} {current : EntityId} (h : t.parentOf? current = none) :
      Climbs before current []
  | met {before : List EntityId} {current parent : EntityId} (h : t.HasParent current parent)
      (hmet : parent = start ∨ parent ∈ before) : Climbs before current [parent]
  | on {before : List EntityId} {current parent : EntityId} {found : List EntityId}
      (h : t.HasParent current parent) (hnew : ¬(parent = start ∨ parent ∈ before))
      (rest : Climbs (parent :: before) parent found) : Climbs before current (parent :: found)

/-- One round of the loop that is followed by another one. -/
def Round (x y : List EntityId × EntityId) : Prop :=
  ∃ parent, t.HasParent x.2 parent ∧ ¬(parent = start ∨ parent ∈ x.1) ∧ y = (parent :: x.1, parent)

/-- The entities that the loop has not met, and one for an entity to go on from. -/
def roundsLeft (x : List EntityId × EntityId) : Nat :=
  (t.ids.countP fun id => id ∉ x.1) + if x.2.index < t.size then 1 else 0

variable {t start}

theorem Round.lt {x y : List EntityId × EntityId} (h : t.Round start x y) :
    t.roundsLeft y < t.roundsLeft x := by
  obtain ⟨parent, hparent, hnew, rfl⟩ := h
  have hlt : x.2.index < t.size := hparent.lt
  have hfresh : parent ∉ x.1 := fun hmem => hnew (.inr hmem)
  simp only [roundsLeft, if_pos hlt]
  by_cases hin : parent.index < t.size
  · have hcount : t.ids.countP (fun id => id ∉ x.1) =
        t.ids.countP (fun id => id ∉ parent :: x.1) + 1 :=
      countP_eq_succ (a := parent) (by simpa using hfresh) (by simp)
        (fun z hz => by simp [hz]) t.nodup_ids ((t.mem_ids parent).mpr hin)
    rw [if_pos hin, hcount]
    omega
  · -- A parent without a place has no parent itself.
    have hcount : t.ids.countP (fun id => id ∉ parent :: x.1) ≤
        t.ids.countP (fun id => id ∉ x.1) :=
      List.countP_mono_left fun z _ hz => by
        simp only [List.mem_cons, not_or, decide_eq_true_eq] at hz ⊢
        exact hz.2
    rw [if_neg hin]
    omega

theorem roundsLeft_le (x : List EntityId × EntityId) : t.roundsLeft x ≤ t.size + 1 := by
  have hcount : t.ids.countP (fun id => id ∉ x.1) ≤ t.ids.length := List.countP_le_length
  have hids : t.ids.length = t.size := by simp [ids]
  unfold roundsLeft
  split <;> omega

/-- With enough fuel the search does what the loop does. -/
theorem climbs_chainFrom {fuel : Nat} {before : List EntityId} {current : EntityId}
    (h : t.roundsLeft (before, current) ≤ fuel) :
    t.Climbs start before current (t.chainFrom start fuel before current) := by
  induction fuel generalizing before current with
  | zero =>
    refine .top ?_
    rw [Option.eq_none_iff_forall_ne_some]
    intro parent hparent
    have hlt : current.index < t.size := HasParent.lt hparent
    simp [roundsLeft, hlt] at h
  | succ fuel ih =>
    rw [chainFrom]
    cases hparent : t.parentOf? current with
    | none => exact .top hparent
    | some parent =>
        dsimp only
        by_cases hmet : parent = start ∨ parent ∈ before
        · rw [if_pos (by simpa using hmet)]
          exact .met hparent hmet
        · rw [if_neg (by simpa using hmet)]
          have hround : t.Round start (before, current) (parent :: before, parent) :=
            ⟨parent, hparent, hmet, rfl⟩
          exact .on hparent hmet (ih (Nat.le_of_lt_succ (Nat.lt_of_lt_of_le hround.lt h)))

theorem Climbs.unique {before : List EntityId} {current : EntityId} {found found' : List EntityId}
    (h : t.Climbs start before current found) (h' : t.Climbs start before current found') :
    found = found' := by
  induction h generalizing found' with
  | top h =>
    cases h' with
    | top _ => rfl
    | met h' _ => cases h.symm.trans h'
    | on h' _ _ => cases h.symm.trans h'
  | met h hmet =>
    cases h' with
    | top h' => cases h'.symm.trans h
    | met h' _ => rw [HasParent.unique h h']
    | on h' hnew _ =>
        obtain rfl := HasParent.unique h h'
        exact absurd hmet hnew
  | on h hnew _ ih =>
    cases h' with
    | top h' => cases h'.symm.trans h
    | met h' hmet =>
        obtain rfl := HasParent.unique h h'
        exact absurd hmet hnew
    | on h' _ rest =>
        obtain rfl := HasParent.unique h h'
        rw [ih rest]

theorem climbs_ancestors (t : SymbolTable) (id : EntityId) : t.Climbs id [] id (t.ancestors id) :=
  climbs_chainFrom (roundsLeft_le _)

end SymbolTable

namespace Linker

/-! ## The recursion -/

/-- What the recursion of the linker is called for: to visit an entity, or to resolve a type
while the typedefs `opened` are being expanded. -/
inductive Task where
  | visit (id : EntityId)
  | resolve (at_ : Location) (opened : List String) (type : TypeRef)

/-- The types of an entity are resolved while no typedef is being expanded. -/
def typeTasks (e : Entity) : List Task := e.types.map fun x => .resolve x.1 [] x.2

/-- The parts of a type are resolved as the type is. -/
def partTasks (at_ : Location) (opened : List String) (t : TypeRef) : List Task :=
  t.parts.map (.resolve at_ opened)

/-- What a visit of an entity starts with: it is due, comes into use and gets its parent.  The
types that are resolved are those of `e`. -/
structure Begins (id : EntityId) (l : Linker) (parent : Option EntityId) (e : Entity)
    (l₁ : Linker) : Prop where
  due : l.isDue id = true
  placed : (linkParent id).run ((enter id).run l).2 = (parent, l₁)
  found : l₁.table.entity? id = some e

/-- An entity with other types in their order. -/
structure Retyped (e : Entity) (us : List TypeRef) (e' : Entity) : Prop where
  blank : e'.blank = e.blank
  types : e'.types = (e.types.map Prod.fst).zip us

/-- What resolving a name comes to. -/
inductive Meaning where
  /-- The entity is visited. -/
  | entity (id : EntityId)
  /-- The typedef is expanded. -/
  | body (index : Nat) (typedef : Typedef)
  /-- The name is left, and this is done about it. -/
  | left (action : LinkM Unit)

/-- What resolving a name comes to while the typedefs `opened` are being expanded. -/
def meaning (t : SymbolTable) (at_ : Location) (opened : List String) (name : String) : Meaning :=
  match t.lookup? name with
  | some (.type id) => .entity id
  | some (.typedef i) =>
      match t.typedefs[i]? with
      | some d =>
          if opened.contains name then .left (report (.typedefCycle name) d.source) else .body i d
      | none => .left (pure ())
  | _ => .left (reportUnresolved name at_)

/-- The handle of an entity, for a name that stands for it. -/
def handleFor (t : SymbolTable) (name : String) (id : EntityId) : TypeRef :=
  match t.entity? id with
  | some e => e.toRef id
  | none => .unlinked name

/-- The recursion of the linker, without budgets.  Some tasks are done one after the other from
a state, give types and end in a state. -/
inductive Ends : List Task → Linker → List TypeRef → Linker → Prop
  | none (l : Linker) : Ends [] l [] l
  | more {a b : Task} {rest : List Task} {l l' l'' : Linker} {us vs : List TypeRef}
      (first : Ends [a] l us l') (others : Ends (b :: rest) l' vs l'') :
      Ends (a :: b :: rest) l (us ++ vs) l''
  -- visits
  | idle {id : EntityId} {l : Linker} (h : l.isDue id = false) : Ends [.visit id] l [] l
  | due {id : EntityId} {l l₁ l₂ l' : Linker} {parent : Option EntityId} {e e' : Entity}
      {us : List TypeRef} (begins : Begins id l parent e l₁) (types : Ends (typeTasks e) l₁ us l₂)
      (retyped : Retyped e us e')
      (above : Ends (parent.toList.map .visit) (l₂.withTable (l₂.table.set id e')) [] l') :
      Ends [.visit id] l [] l'
  -- types
  | handle {at_ : Location} {opened : List String} {kind : EntityKind} {id : EntityId}
      {l l' : Linker} (visited : Ends [.visit id] l [] l') :
      Ends [.resolve at_ opened (.entity kind id)] l [.entity kind id] l'
  | compound {at_ : Location} {opened : List String} {t : TypeRef} {us : List TypeRef}
      {l l' : Linker} (hname : t.isName = false) (hentity : t.entity? = none)
      (parts : Ends (partTasks at_ opened t) ((checkGeneric at_ t).run l).2 us l') :
      Ends [.resolve at_ opened t] l [t.withParts us] l'
  -- names
  | entityName {at_ : Location} {opened : List String} {name : String} {id : EntityId}
      {l l' : Linker} (h : meaning l.table at_ opened name = .entity id)
      (visited : Ends [.visit id] l [] l') :
      Ends [.resolve at_ opened (.unlinked name)] l [handleFor l'.table name id] l'
  | expanded {at_ : Location} {opened : List String} {name : String} {i : Nat} {d : Typedef}
      {u : TypeRef} {l l' : Linker} (h : meaning l.table at_ opened name = .body i d)
      (resolved : Ends [.resolve at_ (name :: opened) d.type] l [u] l') :
      Ends [.resolve at_ opened (.unlinked name)] l [u] ((memoize i u).run l').2
  | left {at_ : Location} {opened : List String} {name : String} {action : LinkM Unit}
      {l : Linker} (h : meaning l.table at_ opened name = .left action) :
      Ends [.resolve at_ opened (.unlinked name)] l [.unlinked name] (action.run l).2

variable {l l' l'' : Linker} {tasks : List Task} {us vs : List TypeRef}

theorem Ends.cons {a : Task} (first : Ends [a] l us l') (others : Ends tasks l' vs l'') :
    Ends (a :: tasks) l (us ++ vs) l'' := by
  cases tasks with
  | nil =>
    cases others
    rwa [List.append_nil]
  | cons b rest => exact .more first others

/-- What is done about a name that is left is a report at most. -/
theorem Tracks.left {R : Linker → Linker → Prop} (hR : Tracks R) {t : SymbolTable}
    {at_ : Location} {opened : List String} {name : String} {action : LinkM Unit}
    (h : meaning t at_ opened name = .left action) : Leads R action := by
  unfold meaning at h
  split at h
  next => cases h
  next =>
    split at h
    next =>
      split at h
      · cases h
        exact hR.report _ _
      · cases h
    next =>
      cases h
      exact .pure hR.refl _
  next =>
    cases h
    exact hR.follows.reportUnresolved _ _

/-- Whatever holds along visits holds along the recursion. -/
theorem Ends.leads {R : Linker → Linker → Prop} (hR : Tracks R) (h : Ends tasks l us l') :
    R l l' := by
  induction h with
  | none l => exact hR.refl l
  | more _ _ ihfirst ihothers => exact hR.trans ihfirst ihothers
  | idle _ => exact hR.refl _
  | @due id l l₁ l₂ l' parent e e' us begins _ retyped _ ihtypes ihabove =>
    have hplaced := hR.linkParent id ((enter id).run l).2
    rw [begins.placed] at hplaced
    exact hR.trans (hR.trans (hR.enter l id begins.due) hplaced)
      (hR.trans (hR.put ihtypes begins.found retyped.blank) ihabove)
  | handle _ ih => exact ih
  | @compound at_ _ t _ l _ _ _ _ ih => exact hR.trans (hR.follows.checkGeneric at_ t l) ih
  | entityName _ _ ih => exact ih
  | expanded _ _ ih => exact hR.trans ih (hR.follows.memoize _ _ _)
  | left h => exact hR.left h _

theorem Ends.advances (h : Ends tasks l us l') : Advances l l' := h.leads tracks_advances

theorem Begins.unique {id : EntityId} {parent parent' : Option EntityId} {e e' : Entity}
    {l₁ l₁' : Linker} (h : Begins id l parent e l₁) (h' : Begins id l parent' e' l₁') :
    parent = parent' ∧ e = e' ∧ l₁ = l₁' := by
  obtain ⟨rfl, rfl⟩ := Prod.mk.inj (h.placed.symm.trans h'.placed)
  exact ⟨rfl, Option.some.inj (h.found.symm.trans h'.found), rfl⟩

theorem Retyped.unique {e e' e'' : Entity} (h : Retyped e us e') (h' : Retyped e us e'') :
    e' = e'' :=
  Entity.eq_of_blank (h.blank.trans h'.blank.symm) (h.types.trans h'.types.symm)

/-- The recursion ends in one way only. -/
theorem Ends.unique (h : Ends tasks l us l') (h' : Ends tasks l vs l'') : us = vs ∧ l' = l'' := by
  induction h generalizing vs l'' with
  | none _ =>
    cases h'
    exact ⟨rfl, rfl⟩
  | more _ _ ihfirst ihothers =>
    cases h' with
    | more first others =>
        obtain ⟨rfl, rfl⟩ := ihfirst first
        obtain ⟨rfl, rfl⟩ := ihothers others
        exact ⟨rfl, rfl⟩
  | idle hdue =>
    cases h' with
    | idle _ => exact ⟨rfl, rfl⟩
    | due begins => cases hdue.symm.trans begins.due
  | due begins _ retyped _ ihtypes ihabove =>
    cases h' with
    | idle hdue => cases hdue.symm.trans begins.due
    | due begins' types' retyped' above' =>
        obtain ⟨rfl, rfl, rfl⟩ := begins.unique begins'
        obtain ⟨rfl, rfl⟩ := ihtypes types'
        obtain rfl := retyped.unique retyped'
        exact ihabove above'
  | handle _ ih =>
    cases h' with
    | handle visited => exact ⟨rfl, (ih visited).2⟩
    | compound _ hentity _ => cases hentity
  | compound hname hentity _ ih =>
    cases h' with
    | handle _ => cases hentity
    | compound _ _ parts =>
        obtain ⟨rfl, rfl⟩ := ih parts
        exact ⟨rfl, rfl⟩
    | _ => cases hname
  | entityName h _ ih =>
    cases h' with
    | compound hname _ _ => cases hname
    | entityName h' visited =>
        cases h.symm.trans h'
        obtain ⟨-, rfl⟩ := ih visited
        exact ⟨rfl, rfl⟩
    | expanded h' _ => cases h.symm.trans h'
    | left h' => cases h.symm.trans h'
  | expanded h _ ih =>
    cases h' with
    | compound hname _ _ => cases hname
    | entityName h' _ => cases h.symm.trans h'
    | expanded h' resolved =>
        cases h.symm.trans h'
        obtain ⟨heq, rfl⟩ := ih resolved
        cases heq
        exact ⟨rfl, rfl⟩
    | left h' => cases h.symm.trans h'
  | left h =>
    cases h' with
    | compound hname _ _ => cases hname
    | entityName h' _ => cases h.symm.trans h'
    | expanded h' _ => cases h.symm.trans h'
    | left h' =>
        cases h.symm.trans h'
        exact ⟨rfl, rfl⟩

/-! ## The measure -/

/-- The names of typedefs that are not being expanded. -/
def closedTypedefs (names : Register String Symbol) (opened : List String) : Finset String :=
  names.keys.toFinset.filter fun name =>
    (names.find? name).any Symbol.isTypedef = true ∧ name ∉ opened

/-- What gets smaller along calls: the entities that are not in use, the typedefs that are not
being expanded, and the size of the type. -/
noncomputable def rank : Task × Linker → ℕ ×ₗ ℕ ×ₗ ℕ
  | (.visit _, l) => toLex (l.table.unused, toLex (0, 0))
  | (.resolve _ opened t, l) =>
      toLex (l.table.unused, toLex ((closedTypedefs l.table.names opened).card + 1, sizeOf t))

/-- The calls that the recursion makes: from a task in a state to one in the state that it is
called in. -/
inductive Calls : Task × Linker → Task × Linker → Prop
  | type {id : EntityId} {l l₁ l₂ : Linker} {parent : Option EntityId} {e : Entity}
      {before after : List Task} {task : Task} {us : List TypeRef}
      (begins : Begins id l parent e l₁) (tasks : typeTasks e = before ++ task :: after)
      (ends : Ends before l₁ us l₂) : Calls (.visit id, l) (task, l₂)
  | parent {id parent : EntityId} {l l₁ l₂ : Linker} {e e' : Entity} {us : List TypeRef}
      (begins : Begins id l (some parent) e l₁) (types : Ends (typeTasks e) l₁ us l₂)
      (retyped : Retyped e us e') :
      Calls (.visit id, l) (.visit parent, l₂.withTable (l₂.table.set id e'))
  | handle {at_ : Location} {opened : List String} {kind : EntityKind} {id : EntityId}
      {l : Linker} : Calls (.resolve at_ opened (.entity kind id), l) (.visit id, l)
  | part {at_ : Location} {opened : List String} {t : TypeRef} {before after : List Task}
      {task : Task} {us : List TypeRef} {l l' : Linker}
      (tasks : partTasks at_ opened t = before ++ task :: after)
      (ends : Ends before ((checkGeneric at_ t).run l).2 us l') :
      Calls (.resolve at_ opened t, l) (task, l')
  | entityName {at_ : Location} {opened : List String} {name : String} {id : EntityId}
      {l : Linker} (h : meaning l.table at_ opened name = .entity id) :
      Calls (.resolve at_ opened (.unlinked name), l) (.visit id, l)
  | expanded {at_ : Location} {opened : List String} {name : String} {i : Nat} {d : Typedef}
      {l : Linker} (h : meaning l.table at_ opened name = .body i d) :
      Calls (.resolve at_ opened (.unlinked name), l) (.resolve at_ (name :: opened) d.type, l)

theorem meaning_body {t : SymbolTable} {at_ : Location} {opened : List String} {name : String}
    {i : Nat} {d : Typedef} (h : meaning t at_ opened name = .body i d) :
    t.names.find? name = some (.typedef i) ∧ name ∉ opened := by
  unfold meaning at h
  split at h
  next => cases h
  next hlookup =>
    split at h
    next =>
      split at h
      next => cases h
      next hclosed =>
        cases h
        exact ⟨hlookup, fun hmem => hclosed (List.contains_iff_mem.mpr hmem)⟩
    next => cases h
  next => cases h

/-- A typedef that is opened is one less that is closed. -/
theorem card_closedTypedefs_lt {names : Register String Symbol} {opened : List String}
    {name : String} {i : Nat} (hname : names.find? name = some (.typedef i))
    (hclosed : name ∉ opened) :
    (closedTypedefs names (name :: opened)).card < (closedTypedefs names opened).card := by
  refine Finset.card_lt_card (Finset.ssubset_iff_of_subset ?_ |>.mpr ⟨name, ?_, ?_⟩)
  · intro other hother
    simp only [closedTypedefs, Finset.mem_filter, List.mem_cons, not_or] at hother ⊢
    exact ⟨hother.1, hother.2.1, hother.2.2.2⟩
  · simp [closedTypedefs, hname, hclosed, Symbol.isTypedef, Register.mem_keys_of_find? hname]
  · simp [closedTypedefs]

theorem card_closedTypedefs_le (names : Register String Symbol) (opened : List String) :
    (closedTypedefs names opened).card ≤ names.size := by
  calc (closedTypedefs names opened).card ≤ names.keys.toFinset.card :=
        Finset.card_le_card (Finset.filter_subset _ _)
    _ ≤ names.keys.length := names.keys.toFinset_card_le
    _ = names.size := by simp [Register.keys, Register.size]

theorem Advances.unused_le (h : Advances l l') : l'.table.unused ≤ l.table.unused :=
  SymbolTable.unused_le_unused h.shape.size h.used

/-- Once a visit has begun, one entity less is not in use. -/
theorem Begins.unused_lt {id : EntityId} {parent : Option EntityId} {e : Entity} {l₁ : Linker}
    (h : Begins id l parent e l₁) : l₁.table.unused < l.table.unused := by
  obtain ⟨_, hlt, hfree⟩ := isDue_iff.mp h.due
  have hplaced := tracks_advances.linkParent id ((enter id).run l).2
  rw [h.placed] at hplaced
  calc l₁.table.unused ≤ (l.table.mark id).unused := hplaced.unused_le
    _ < l.table.unused := by rw [SymbolTable.unused_mark hlt hfree]; exact Nat.lt_succ_self _

theorem unused_put {id : EntityId} {e e' : Entity} {us : List TypeRef} {l₁ l₂ : Linker}
    (he : l₁.table.entity? id = some e) (htypes : Ends (typeTasks e) l₁ us l₂)
    (hblank : e'.blank = e.blank) :
    (l₂.withTable (l₂.table.set id e')).table.unused ≤ l₁.table.unused :=
  (tracks_advances.put htypes.advances he hblank).unused_le

theorem rank_lt_of_unused {x y : Task × Linker} (h : y.2.table.unused < x.2.table.unused) :
    rank y < rank x := by
  obtain ⟨task, l⟩ := x
  obtain ⟨task', l'⟩ := y
  cases task <;> cases task' <;> exact Prod.Lex.left _ _ h

theorem rank_visit_lt_resolve (id : EntityId) (at_ : Location) (opened : List String) (t : TypeRef)
    (l : Linker) : rank (.visit id, l) < rank (.resolve at_ opened t, l) :=
  Prod.Lex.right _ (Prod.Lex.left _ _ (Nat.succ_pos _))

/-- Along a call the rank gets smaller. -/
theorem Calls.rank_lt {x y : Task × Linker} (h : Calls x y) : rank y < rank x := by
  cases h with
  | type begins _ ends =>
    exact rank_lt_of_unused (Nat.lt_of_le_of_lt ends.advances.unused_le begins.unused_lt)
  | parent begins types retyped =>
    exact rank_lt_of_unused
      (Nat.lt_of_le_of_lt (unused_put begins.found types retyped.blank) begins.unused_lt)
  | handle => exact rank_visit_lt_resolve ..
  | @part at_ opened t before after task us l l' tasks ends =>
    have hmem : task ∈ partTasks at_ opened t := by
      rw [tasks]
      exact List.mem_append_right _ List.mem_cons_self
    obtain ⟨u, hu, rfl⟩ := List.mem_map.mp hmem
    have hahead : Advances l l' :=
      (tracks_advances.follows.checkGeneric at_ t l).trans ends.advances
    rcases Nat.lt_or_eq_of_le hahead.unused_le with hlt | heq
    · exact rank_lt_of_unused hlt
    · simp only [rank, hahead.shape.names, heq]
      exact Prod.Lex.right _ (Prod.Lex.right _ (TypeRef.sizeOf_lt_of_mem_parts hu))
  | entityName _ => exact rank_visit_lt_resolve ..
  | expanded h =>
    obtain ⟨hlookup, hclosed⟩ := meaning_body h
    exact Prod.Lex.right _
      (Prod.Lex.left _ _ (Nat.succ_lt_succ (card_closedTypedefs_lt hlookup hclosed)))

/-! ## Budgets -/

/-- What a name is resolved to is its meaning, if names that are being expanded are left. -/
theorem run_resolveName {visit : EntityId → LinkM Unit} {at_ : Location}
    {expand : String → Nat → Typedef → LinkM TypeRef} (opened : List String)
    (hopened : ∀ name i d l, name ∈ opened → (expand name i d).run l =
      (.unlinked name, ((report (.typedefCycle name) d.source).run l).2))
    (name : String) (l : Linker) :
    (resolveName visit at_ expand name).run l =
      match meaning l.table at_ opened name with
      | .entity id => (handleFor ((visit id).run l).2.table name id, ((visit id).run l).2)
      | .body i d => (expand name i d).run l
      | .left action => (.unlinked name, (action.run l).2) := by
  unfold resolveName
  rw [run_get_bind]
  cases hlookup : l.table.lookup? name with
  | none => simp only [meaning, hlookup]; rfl
  | some symbol =>
      cases symbol with
      | mixin _ => simp only [meaning, hlookup]; rfl
      | type id =>
          simp only [meaning, hlookup]
          rw [run_bind, run_get_bind, handleFor]
          cases ((visit id).run l).2.table.entity? id <;> rfl
      | typedef i =>
          cases hbody : l.table.typedefs[i]? with
          | none => simp only [meaning, hlookup, hbody]; rfl
          | some d =>
              by_cases hmem : name ∈ opened
              · simp [meaning, hlookup, hbody, hmem, hopened]
              · simp [meaning, hlookup, hbody, hmem]

section Budgets

variable {names : Register String Symbol} {n : Nat} {visit : EntityId → LinkM Unit}

/-- The states in which at most `n` entities are not in use and names stand for what they do. -/
structure Within (names : Register String Symbol) (n : Nat) (l : Linker) : Prop where
  unused : l.table.unused ≤ n
  names : l.table.names = names

theorem Within.advances (h : Within names n l) (hahead : Advances l l') : Within names n l' :=
  ⟨Nat.le_trans hahead.unused_le h.unused, hahead.shape.names.trans h.names⟩

/-- An action with one type as its result does what a task does in the recursion. -/
def Performs (action : LinkM TypeRef) (task : Task) (l : Linker) : Prop :=
  Ends [task] l [(action.run l).1] (action.run l).2

/-- Types that are resolved as in the recursion one by one are so together. -/
theorem ends_rebuildListM {at_ : Location} {opened : List String} {enter : TypeRef → LinkM Unit}
    {leave : TypeRef → LinkM TypeRef} {ts : List TypeRef}
    (each : ∀ t ∈ ts, ∀ l, Within names n l →
      Performs (t.rebuildM enter leave) (.resolve at_ opened t) l)
    (hl : Within names n l) :
    Ends (ts.map (.resolve at_ opened)) l ((TypeRef.rebuildListM enter leave ts).run l).1
      ((TypeRef.rebuildListM enter leave ts).run l).2 := by
  induction ts generalizing l with
  | nil => exact .none l
  | cons t ts ih =>
    rw [TypeRef.run_rebuildListM_cons]
    have hfirst := each t List.mem_cons_self l hl
    exact hfirst.cons (ih (fun u hu => each u (List.mem_cons_of_mem t hu))
      (hl.advances hfirst.advances))

/-- A type is resolved as in the recursion if visits and names are. -/
theorem performs_rebuildM
    (hvisit : ∀ id l, Within names n l → Ends [.visit id] l [] ((visit id).run l).2)
    {at_ : Location} {opened : List String} {onName : String → LinkM TypeRef}
    (honName : ∀ name l, Within names n l →
      Performs (onName name) (.resolve at_ opened (.unlinked name)) l)
    (t : TypeRef) (hl : Within names n l) :
    Performs (t.rebuildM (checkGeneric at_) (resolvePart visit onName))
      (.resolve at_ opened t) l := by
  induction t using TypeRef.partsInduction generalizing l with
  | step t ih =>
    have hchecked : Within names n ((checkGeneric at_ t).run l).2 :=
      hl.advances (tracks_advances.follows.checkGeneric at_ t l)
    have hparts := ends_rebuildListM (fun u hu l hl => ih u hu hl) hchecked
    rw [Performs, TypeRef.run_rebuildM]
    dsimp only
    cases hentity : t.entity? with
    | some id =>
        obtain ⟨kind, rfl⟩ : ∃ kind, t = .entity kind id := by
          cases t <;> cases hentity
          exact ⟨_, rfl⟩
        exact .handle (hvisit id l hl)
    | none =>
        cases hname : t.isName with
        | true =>
            obtain ⟨name, rfl⟩ : ∃ name, t = .unlinked name := by
              cases t <;> cases hname
              exact ⟨_, rfl⟩
            exact honName name l hl
        | false =>
            rw [resolvePart_eq_pure ((TypeRef.isName_withParts t _).trans hname)
              ((TypeRef.entity?_withParts t _).trans hentity)]
            exact .compound hname hentity hparts

theorem run_memoize (i : Nat) (u : TypeRef) (l : Linker) :
    (memoize i u).run l = (u, ((memoize i u).run l).2) := by
  unfold memoize
  split <;> rfl

/-- A name is resolved as in the recursion if typedefs are expanded so. -/
theorem performs_resolveName
    (hvisit : ∀ id l, Within names n l → Ends [.visit id] l [] ((visit id).run l).2)
    {at_ : Location} {expand : String → Nat → Typedef → LinkM TypeRef} {opened : List String}
    (hopened : ∀ name i d l, name ∈ opened → (expand name i d).run l =
      (.unlinked name, ((report (.typedefCycle name) d.source).run l).2))
    {name : String} (hl : Within names n l)
    (hbody : ∀ i d, meaning l.table at_ opened name = .body i d →
      Performs (expand name i d) (.resolve at_ opened (.unlinked name)) l) :
    Performs (resolveName visit at_ expand name) (.resolve at_ opened (.unlinked name)) l := by
  rw [Performs, run_resolveName opened hopened]
  cases hmeaning : meaning l.table at_ opened name with
  | entity id => exact .entityName hmeaning (hvisit id l hl)
  | body i d => exact hbody i d hmeaning
  | left action => exact .left hmeaning

/-- With enough budget a type is resolved as in the recursion. -/
theorem performs_resolve
    (hvisit : ∀ id l, Within names n l → Ends [.visit id] l [] ((visit id).run l).2)
    (at_ : Location) {budget : Nat} {opened : List String}
    (hbudget : (closedTypedefs names opened).card ≤ budget) (t : TypeRef)
    (hl : Within names n l) :
    Performs (resolve visit at_ budget opened t) (.resolve at_ opened t) l := by
  induction budget generalizing opened t l with
  | zero =>
    rw [resolve]
    refine performs_rebuildM hvisit (fun name l hl => performs_resolveName hvisit
      (fun _ _ _ _ hmem => by rw [if_pos (List.contains_iff_mem.mpr hmem)]; rfl) hl
      fun i d hmeaning => ?_) t hl
    -- No typedef is closed, so there is none to expand.
    obtain ⟨hlookup, hclosed⟩ := meaning_body hmeaning
    rw [hl.names] at hlookup
    have hlt := card_closedTypedefs_lt hlookup hclosed
    omega
  | succ budget ih =>
    rw [resolve]
    refine performs_rebuildM hvisit (fun name l hl => performs_resolveName hvisit
      (fun _ _ _ _ hmem => by rw [if_pos (List.contains_iff_mem.mpr hmem)]; rfl) hl
      fun i d hmeaning => ?_) t hl
    obtain ⟨hlookup, hclosed⟩ := meaning_body hmeaning
    rw [hl.names] at hlookup
    have hlt := card_closedTypedefs_lt hlookup hclosed
    have hresolved := ih (Nat.le_of_lt_succ (Nat.lt_of_lt_of_le hlt hbudget)) d.type hl
    rw [Performs, if_neg (mt List.contains_iff_mem.mp hclosed)]
    dsimp only
    rw [run_bind, run_memoize]
    exact .expanded hmeaning hresolved

/-- The types of an entity are resolved as in the recursion if single types are. -/
theorem ends_mapM {f : Location → TypeRef → LinkM TypeRef} {xs : List (Location × TypeRef)}
    (each : ∀ x ∈ xs, ∀ l, Within names n l → Performs (f x.1 x.2) (.resolve x.1 [] x.2) l)
    (hl : Within names n l) :
    Ends (xs.map fun x => .resolve x.1 [] x.2) l
      (((xs.mapM (walkType f)).run l).1.map Prod.snd) ((xs.mapM (walkType f)).run l).2 := by
  induction xs generalizing l with
  | nil => exact .none l
  | cons x xs ih =>
    rw [List.mapM_cons]
    have hfirst := each x List.mem_cons_self l hl
    exact hfirst.cons (ih (fun y hy => each y (List.mem_cons_of_mem x hy))
      (hl.advances hfirst.advances))

/-- An entity is rebuilt as in the recursion if its types are. -/
theorem ends_mapTypesM {f : Location → TypeRef → LinkM TypeRef} {e : Entity}
    (each : ∀ x ∈ e.types, ∀ l, Within names n l → Performs (f x.1 x.2) (.resolve x.1 [] x.2) l)
    (hl : Within names n l) :
    ∃ us, Ends (typeTasks e) l us ((e.mapTypesM f).run l).2 ∧
      Retyped e us ((e.mapTypesM f).run l).1 := by
  have hends := ends_mapM each hl
  have hplaces : Always (fun ys => ys.map Prod.fst = e.types.map Prod.fst)
      (e.types.mapM (walkType f)) :=
    Always.mapM (v := Prod.fst) (g := walkType f)
      (fun x => (Always.any (f x.1 x.2)).map fun _ _ => rfl) e.types
  have hplaces := hplaces.run l
  rw [← Entity.types_mapTypesM] at hends hplaces
  exact ⟨_, hends, (Entity.blank_mapTypesM f e).run l, List.zip_of_prod hplaces rfl⟩

end Budgets

/-- The types of an entity are resolved and put back as in the recursion. -/
theorem ends_linkTypes {visit : EntityId → LinkM Unit} {budget : Nat} {id : EntityId} {e : Entity}
    (hvisit : ∀ id l, l.table.unused ≤ budget → Ends [.visit id] l [] ((visit id).run l).2)
    (hbudget : l.table.unused ≤ budget) (he : l.table.entity? id = some e) :
    ∃ us l' e', Ends (typeTasks e) l us l' ∧ Retyped e us e' ∧
      ((linkTypes visit id).run l).2 = l'.withTable (l'.table.set id e') := by
  have hl : Within l.table.names budget l := ⟨hbudget, rfl⟩
  obtain ⟨us, hends, hretyped⟩ := ends_mapTypesM (e := e)
    (f := fun at_ t => resolve visit at_ l.table.names.size [] t)
    (fun x _ l hl => performs_resolve (fun id l hl => hvisit id l hl.unused) x.1
      (card_closedTypedefs_le _ []) x.2 hl) hl
  refine ⟨us, _, _, hends, hretyped, ?_⟩
  unfold linkTypes
  rw [run_get_bind]
  simp only [he]
  rw [run_get_bind, run_bind]
  rfl

/-- With enough budget a visit does what the recursion does. -/
theorem ends_visit {budget : Nat} {id : EntityId} (hbudget : l.table.unused ≤ budget) :
    Ends [.visit id] l [] ((visit budget id).run l).2 := by
  induction budget generalizing id l with
  | zero =>
    refine .idle ?_
    rw [← Bool.not_eq_true, isDue_iff]
    rintro ⟨-, hlt, hfree⟩
    cases hfree.symm.trans (SymbolTable.isInUse_of_unused (Nat.le_zero.mp hbudget) hlt)
  | succ budget ih =>
    cases hdue : l.isDue id with
    | false =>
        rw [visit_of_not_due hdue]
        exact .idle hdue
    | true =>
        rw [visit, run_get_bind, if_pos hdue, run_bind, run_bind]
        generalize hplaced : (linkParent id).run ((enter id).run l).2 = r
        obtain ⟨parent, l₁⟩ := r
        have hahead := (advances_enter hdue).trans
          (tracks_advances.linkParent id ((enter id).run l).2)
        rw [hplaced] at hahead
        obtain ⟨e, he⟩ := SymbolTable.entity?_of_lt (hahead.shape.size ▸ (isDue_iff.mp hdue).2.1)
        have hbegins : Begins id l parent e l₁ := ⟨hdue, hplaced, he⟩
        have hbudget₁ : l₁.table.unused ≤ budget :=
          Nat.le_of_lt_succ (Nat.lt_of_lt_of_le hbegins.unused_lt hbudget)
        obtain ⟨us, l₂, e', htypes, hretyped, hrun⟩ := ends_linkTypes (fun _ _ => ih) hbudget₁ he
        refine .due hbegins htypes hretyped ?_
        rw [run_bind, hrun]
        cases parent with
        | none => exact .none _
        | some parent => exact ih (Nat.le_trans (unused_put he htypes hretyped.blank) hbudget₁)

/-- Every list of tasks ends. -/
theorem exists_ends (tasks : List Task) (l : Linker) : ∃ us l', Ends tasks l us l' := by
  induction tasks generalizing l with
  | nil => exact ⟨[], l, .none l⟩
  | cons task tasks ih =>
    obtain ⟨us, l₁, hfirst⟩ : ∃ us l₁, Ends [task] l us l₁ := by
      cases task with
      | visit id => exact ⟨_, _, ends_visit (Nat.le_refl _)⟩
      | resolve at_ opened t =>
          exact ⟨_, _, performs_resolve (fun id l hl => ends_visit hl.unused) at_ (Nat.le_refl _) t
            ⟨Nat.le_refl _, rfl⟩⟩
    obtain ⟨vs, l₂, hothers⟩ := ih l₁
    exact ⟨us ++ vs, l₂, hfirst.cons hothers⟩

/-! ## Calls -/

/-- What a call of the linker comes to behind its visits: it polls the log. -/
def polled (l : Linker) : EStateM.Result Stop Linker Unit :=
  if l.compilation.isOverLimit then .error .tooManyErrors l else .ok () l

theorem exists_ends_link (id : EntityId) (l : Linker) :
    ∃ l', Ends [.visit id] l [] l' ∧ link id l = polled l' :=
  ⟨_, ends_visit l.table.unused_le_size, link_eq id l⟩

/-- Visits over the limit are idle. -/
theorem ends_visits_of_isOverLimit (hlimit : l.compilation.isOverLimit = true)
    (ids : List EntityId) : Ends (ids.map .visit) l [] l := by
  induction ids with
  | nil => exact .none l
  | cons id ids ih => exact (Ends.idle (by simp [isDue, hlimit])).cons ih

theorem exists_ends_forM_link (ids : List EntityId) (l : Linker) :
    ∃ l', Ends (ids.map .visit) l [] l' ∧
      ids.forM link l = if ids = [] then .ok ⟨⟩ l' else polled l' := by
  induction ids generalizing l with
  | nil => exact ⟨l, .none l, rfl⟩
  | cons id ids ih =>
    obtain ⟨l₁, hfirst, hlink⟩ := exists_ends_link id l
    by_cases hlimit : l₁.compilation.isOverLimit = true
    · rw [polled, if_pos hlimit] at hlink
      refine ⟨l₁, hfirst.cons (ends_visits_of_isOverLimit hlimit ids), ?_⟩
      rw [forM_cons_error hlink, if_neg (List.cons_ne_nil id ids), polled, if_pos hlimit]
    · rw [polled, if_neg hlimit] at hlink
      obtain ⟨l₂, hothers, hrun⟩ := ih l₁
      refine ⟨l₂, hfirst.cons hothers, ?_⟩
      rw [forM_cons_run hlink, hrun, if_neg (List.cons_ne_nil id ids)]
      split
      next hids =>
        subst hids
        cases hothers
        rw [polled, if_neg hlimit]
      next => rfl

/-- Linking ends, whatever the table holds and however many errors are allowed.

Along a call of the recursion the rank gets smaller, and along a round of the loop from parent to
parent the number of rounds that are left.  So from any state the recursion ends, in one way only,
and so does the loop.  The linker does what they do: a call for an entity visits it, and a call for
all interfaces visits them in order, until the log polls too many errors. -/
theorem linking_ends :
    (∀ x y : Task × Linker, Calls x y → rank y < rank x) ∧
      (∀ tasks l, ∃! r : List TypeRef × Linker, Ends tasks l r.1 r.2) ∧
      (∀ id l, ∃ l', Ends [.visit id] l [] l' ∧ link id l = polled l') ∧
      (∀ l, ∃ l', Ends ((l.table.idsOf .interface).map .visit) l [] l' ∧
        linkRoots l = if l.table.idsOf .interface = [] then .ok () l' else polled l') ∧
      (∀ (t : SymbolTable) (start : EntityId) (x y : List EntityId × EntityId),
        t.Round start x y → t.roundsLeft y < t.roundsLeft x) ∧
      ∀ (t : SymbolTable) (id : EntityId) (found : List EntityId),
        t.Climbs id [] id found ↔ found = t.ancestors id := by
  refine ⟨fun _ _ => Calls.rank_lt, fun tasks l => ?_, exists_ends_link,
    fun l => exists_ends_forM_link _ l, fun _ _ _ _ => SymbolTable.Round.lt, fun t id found => ?_⟩
  · obtain ⟨us, l', h⟩ := exists_ends tasks l
    refine ⟨(us, l'), h, fun r hr => ?_⟩
    obtain ⟨hus, hl⟩ := hr.unique h
    exact Prod.ext hus hl
  · constructor
    · intro h
      exact h.unique (t.climbs_ancestors id)
    · rintro rfl
      exact t.climbs_ancestors id

end Linker

end IdlModel
