import IdlModel.Proofs.Endings
import IdlModel.Proofs.Renaming
import Mathlib.Logic.Relation

/-!
# Runs of scripts

A script changes a table through edits of single entities.

*Edits.*  `Script.Edit.apply_cases` says what an edit makes of an entity: a value
changes, a type is overridden, members are renamed, or an event comes.  So every edit
keeps the outline, and it is a renaming.

*Directions.*  A script *directs* an edit at an entity if a block for the entity has the
edit, or if a selection that is for the entity has it.  What a selection is for depends
on kinds and IDL names only.

*Runs.*  What a run of scripts makes of an entity comes from edits that the scripts
direct at the entity: `runScripts_edited`.
-/

namespace IdlModel

open Relation (ReflTransGen)

/-! ## Edits -/

/-- Parts that are changed where nothing can be seen. -/
theorem map_map_of_keeps {α β : Type} {v : α → β} {f : α → α} (h : ∀ x, v (f x) = v x)
    (xs : List α) : (xs.map f).map v = xs.map v := by
  rw [List.map_map]
  exact List.map_congr_left fun x _ => h x

/-- The same for parts that get other names. -/
theorem Always.mapM_rename {m : Type → Type} [Monad m] [LawfulMonad m] {α β : Type} {v : α → β}
    {p : α → String → α} (hput : ∀ x name, v (p x name) = v x) (f : α → m String)
    (xs : List α) :
    Always (fun ys => ys.map v = xs.map v) (xs.mapM fun x => do return p x (← f x)) := by
  refine Always.mapM (fun x => ?_) xs
  exact (Always.any (f x)).bind fun name _ => Always.pure (hput x name)

theorem Members.outline_mapNamesM {m : Type → Type} [Monad m] [LawfulMonad m]
    (f : String → String → m String) (d : Members) :
    Always (fun d' : Members => d'.outline = d.outline) (d.mapNamesM f) := by
  have hconstant := Always.mapM_rename (v := Constant.outline)
    (p := fun x name => { x with name }) (fun _ _ => rfl) (fun x => f x.idl x.name)
  have hattribute := Always.mapM_rename (v := Attribute.outline)
    (p := fun x name => { x with name }) (fun _ _ => rfl) (fun x => f x.idl x.name)
  have hmethod := Always.mapM_rename (v := Method.outline)
    (p := fun x name => { x with name }) (fun _ _ => rfl) (fun x => f x.idl x.name)
  unfold mapNamesM
  refine (hconstant d.constants).bind fun constants hconstants => ?_
  refine (hattribute d.attributes).bind fun attributes hattributes => ?_
  refine (hattribute d.staticAttributes).bind fun staticAttributes hstaticAttributes => ?_
  refine (hmethod d.methods).bind fun methods hmethods => ?_
  refine (hmethod d.staticMethods).bind fun staticMethods hstaticMethods => Always.pure ?_
  simp only [outline, hconstants, hattributes, hstaticAttributes, hmethods, hstaticMethods]

theorem Members.outline_rename (d : Members) (member newName : String) :
    (d.rename member newName).1.outline = d.outline :=
  (d.outline_mapNamesM (renameOne member newName)).run 0

namespace Entity

variable {e e' : Entity}

theorem outline_withProperty (e : Entity) (value : String) (p : Script.Property) :
    (e.withProperty value p).outline = e.outline := by
  cases p <;> cases e <;> rfl

theorem outline_withOverride (e : Entity) (member type : String) :
    (e.withOverride member type).outline = e.outline := by
  cases e with
  | interface d =>
      have hattribute := map_map_of_keeps (v := Attribute.outline)
        (f := fun x => if x.idl = member then { x with typeOverride := some type } else x)
        fun x => by split <;> rfl
      have hmethod := map_map_of_keeps (v := Method.outline)
        (f := fun x => if x.idl = member then { x with typeOverride := some type } else x)
        fun x => by split <;> rfl
      simp only [withOverride, outline, Members.outline, hattribute, hmethod]
  | dictionary d =>
      have hfield := map_map_of_keeps (v := Field.outline)
        (f := fun x => if x.idl = member then { x with typeOverride := some type } else x)
        fun x => by split <;> rfl
      simp only [withOverride, outline, hfield]
  | enumeration d => rfl
  | callback d =>
      have hparameter := map_map_of_keeps (v := Parameter.outline)
        (f := fun x => if x.name = member then { x with typeOverride := some type } else x)
        fun x => by split <;> rfl
      simp only [withOverride, outline, hparameter]

theorem events_withProperty (e : Entity) (value : String) (p : Script.Property) :
    (e.withProperty value p).events = e.events := by
  cases p <;> cases e <;> rfl

theorem events_withOverride (e : Entity) (member type : String) :
    (e.withOverride member type).events = e.events := by
  cases e <;> rfl

theorem fields_withProperty (e : Entity) (value : String) (p : Script.Property) :
    (e.withProperty value p).fields = e.fields := by
  cases p <;> cases e <;> rfl

/-! ### What each of them makes -/

theorem findProperty_bind_ok {name : String} {f : Script.Property → Except Issue Entity}
    (h : e.findProperty name >>= f = .ok e') : ∃ p, f p = .ok e' := by
  unfold findProperty at h
  split at h
  next p _ => exact ⟨p, h⟩
  next => cases h

theorem setProperty_ok {name value : String} (h : e.setProperty name value = .ok e') :
    ∃ p, e' = e.withProperty value p := by
  obtain ⟨p, hp⟩ := findProperty_bind_ok h
  split at hp
  next => cases hp
  next =>
    cases hp
    exact ⟨p, rfl⟩

theorem renameMembers_ok {member newName : String} (h : e.renameMembers member newName = .ok e') :
    ∃ d m, e = .interface d ∧ m.outline = d.members.outline ∧
      e' = .interface { d with members := m } := by
  cases e with
  | interface d =>
      have houtline := d.members.outline_rename member newName
      unfold renameMembers at h
      dsimp only at h
      split at h
      next => cases h
      next m _ _ heq =>
        cases h
        rw [heq] at houtline
        exact ⟨d, m, rfl, houtline, rfl⟩
  | _ => cases h

theorem changeType_ok {member type : String} (h : e.changeType member type = .ok e') :
    member ∈ e.overridable ∧ e' = e.withOverride member type := by
  unfold changeType at h
  split at h
  next => cases h
  next =>
    split at h
    next hmember =>
      cases h
      exact ⟨List.contains_iff_mem.mp hmember, rfl⟩
    next => cases h

theorem patch_ok (h : e.patch = .ok e') :
    ∃ d m, e = .interface d ∧ m.outline = d.members.outline ∧
      e' = .interface { d with members := m } := by
  cases e with
  | interface d =>
      cases h
      refine ⟨d, _, rfl, ?_, rfl⟩
      have hconstant := map_map_of_keeps (v := Constant.outline)
        (f := fun x => { x with name := constantName x.idl }) fun _ => rfl
      simp only [Members.outline, hconstant]
  | _ => cases h

/-- A new event is one of an interface. -/
theorem addEvent_ok {t : SymbolTable} {name type : String} (h : addEvent t e name type = .ok e') :
    ∃ d v, e = .interface d ∧ t.kind? v.type = some .interface ∧
      e' = .interface { d with events := d.events ++ [v] } := by
  cases e with
  | interface d =>
      unfold addEvent at h
      dsimp only at h
      split at h
      next id hid =>
        cases h
        obtain ⟨_, hkind⟩ := Option.filter_eq_some_iff.mp hid
        exact ⟨d, _, rfl, eq_of_beq hkind, rfl⟩
      next => cases h
  | _ => cases h

end Entity

namespace Script.Edit

variable {t t' : SymbolTable} {e e' : Entity} {edit : Script.Edit}

/-- What an edit makes of an entity. -/
theorem apply_cases (h : edit.apply t e = .ok e') :
    (∃ value p, e' = e.withProperty value p) ∨
      (∃ member type, edit = .changeType member type ∧ member ∈ e.overridable ∧
        e' = e.withOverride member type) ∨
      (∃ d m, e = .interface d ∧ m.outline = d.members.outline ∧
        e' = .interface { d with members := m }) ∨
      ∃ d v, e = .interface d ∧ t.kind? v.type = some .interface ∧
        e' = .interface { d with events := d.events ++ [v] } := by
  cases edit with
  | setProperty name value => exact .inl ⟨value, Entity.setProperty_ok h⟩
  | rename member newName => exact .inr (.inr (.inl (Entity.renameMembers_ok h)))
  | changeType member type => exact .inr (.inl ⟨member, type, rfl, Entity.changeType_ok h⟩)
  | patch => exact .inr (.inr (.inl (Entity.patch_ok h)))
  | replace property old new =>
      obtain ⟨p, hp⟩ := Entity.findProperty_bind_ok h
      exact .inl ⟨_, Entity.setProperty_ok hp⟩
  | event name type => exact .inr (.inr (.inr (Entity.addEvent_ok h)))

theorem apply_outline (h : edit.apply t e = .ok e') : e'.outline = e.outline := by
  rcases apply_cases h with ⟨value, p, rfl⟩ | ⟨member, type, -, -, rfl⟩ | ⟨d, m, rfl, hm, rfl⟩ |
    ⟨d, v, rfl, -, rfl⟩
  · exact e.outline_withProperty value p
  · exact e.outline_withOverride member type
  · exact Entity.outline_withMembers hm
  · rfl

/-- Every edit of an entity is a renaming. -/
theorem apply_renamed (h : edit.apply t e = .ok e') :
    e.Renamed (fun y => t.kind? y = some .interface) e' := by
  refine .of_outline (apply_outline h) fun v hv => ?_
  rcases apply_cases h with ⟨value, p, rfl⟩ | ⟨member, type, -, -, rfl⟩ | ⟨d, m, rfl, hm, rfl⟩ |
    ⟨d, w, rfl, hkind, rfl⟩
  · exact .inl (e.events_withProperty value p ▸ hv)
  · exact .inl (e.events_withOverride member type ▸ hv)
  · exact .inl hv
  · rcases List.mem_append.mp hv with hv | hv
    · exact .inl hv
    · exact .inr (List.mem_singleton.mp hv ▸ hkind)

/-- An edit depends on names and kinds of the table only. -/
theorem apply_congr (h : t.Renamed t') (e : Entity) : edit.apply t' e = edit.apply t e := by
  have hevent : ∀ name, Entity.eventType? t' name = Entity.eventType? t name := by
    intro name
    simp only [Entity.eventType?, SymbolTable.lookupType?_congr h.names, h.kind?_eq]
  cases edit with
  | event name type => cases e <;> simp only [apply, Entity.addEvent, hevent]
  | _ => rfl

end Script.Edit

/-! ## Directions -/

namespace Script

/-- A selection is for an entity. -/
def Selection.IsFor (s : Selection) (t : SymbolTable) (x : EntityId) : Prop :=
  ∃ e, t.entity? x = some e ∧ s.filter.passes e.kind = true ∧ s.pattern.accepts e.key = true

/-- An item directs an edit at an entity. -/
inductive Item.Directs (t : SymbolTable) (x : EntityId) : Edit → Item → Prop where
  /-- The edit is in a block for the entity. -/
  | block {b : Block} {a : Action} {edit : Edit} : t.lookupType? b.name = some x → a ∈ b.actions →
      a.effect = .edit edit → Directs t x edit (.block b)
  /-- The edit is that of a selection in a block. -/
  | among {b : Block} {a : Action} {s : Selection} : a ∈ b.actions → a.effect = .select s →
      s.IsFor t x → Directs t x s.edit (.block b)
  /-- The edit is that of a selection outside any block. -/
  | global {s : Selection} {line : Nat} : s.IsFor t x → Directs t x s.edit (.global s line)

/-- Some scripts direct an edit at an entity. -/
def Directed (sources : List Source) (t : SymbolTable) (x : EntityId) (edit : Edit) : Prop :=
  ∃ source ∈ sources, ∃ script, (Script.read source).1 = some script ∧
    ∃ item ∈ script.items, item.Directs t x edit

end Script

/-! ## Edited tables -/

/-- Entities that come from one another by edits. -/
def Entity.EditedBy (t : SymbolTable) (D : Script.Edit → Prop) : Entity → Entity → Prop :=
  ReflTransGen fun e e' => ∃ edit, D edit ∧ edit.apply t e = .ok e'

/-- Tables whose entities come from one another by edits directed at them. -/
structure SymbolTable.Edited (D : EntityId → Script.Edit → Prop) (t t' : SymbolTable) : Prop where
  size : t'.size = t.size
  names : t'.names = t.names
  marks : ∀ x, t'.isInUse x = t.isInUse x
  entities : ∀ x e, t.entity? x = some e → ∃ e', t'.entity? x = some e' ∧ e.EditedBy t (D x) e'

section EditedBy

variable {t t' : SymbolTable} {D D' : Script.Edit → Prop} {e e' : Entity}

theorem Entity.EditedBy.imp (h : e.EditedBy t D e') (hD : ∀ edit, D edit → D' edit) :
    e.EditedBy t D' e' := by
  refine ReflTransGen.mono ?_ _ _ h
  rintro _ _ ⟨edit, hedit, happly⟩
  exact ⟨edit, hD edit hedit, happly⟩

theorem Entity.EditedBy.congr (h : e.EditedBy t' D e') (ht : t.Renamed t') :
    e.EditedBy t D e' := by
  refine ReflTransGen.mono ?_ _ _ h
  rintro e₁ _ ⟨edit, hedit, happly⟩
  exact ⟨edit, hedit, (edit.apply_congr ht e₁).symm.trans happly⟩

/-- A view that no edit changes. -/
theorem Entity.EditedBy.view_eq {α : Type} {f : Entity → α} (h : e.EditedBy t D e')
    (hf : ∀ {edit : Script.Edit} {e e' : Entity}, D edit → edit.apply t e = .ok e' → f e' = f e) :
    f e' = f e := by
  induction h with
  | refl => rfl
  | tail _ hedit ih =>
      obtain ⟨edit, hedit, happly⟩ := hedit
      exact (hf hedit happly).trans ih

theorem Entity.EditedBy.outline_eq (h : e.EditedBy t D e') : e'.outline = e.outline :=
  h.view_eq fun _ happly => Script.Edit.apply_outline happly

theorem Entity.EditedBy.eq_of_none (h : e.EditedBy t D e') (hD : ∀ edit, ¬ D edit) : e' = e :=
  h.view_eq (f := id) fun hd _ => absurd hd (hD _)

theorem Entity.EditedBy.renamed (h : e.EditedBy t D e') :
    e.Renamed (fun y => t.kind? y = some .interface) e' := by
  induction h with
  | refl => exact .refl e
  | tail _ hedit ih =>
      obtain ⟨edit, _, happly⟩ := hedit
      exact ih.trans (Script.Edit.apply_renamed happly)

end EditedBy

namespace SymbolTable.Edited

variable {t t' : SymbolTable} {D : EntityId → Script.Edit → Prop} {x : EntityId}

theorem refl (t : SymbolTable) : t.Edited D t :=
  ⟨rfl, rfl, fun _ => rfl, fun _ e he => ⟨e, he, .refl⟩⟩

theorem renamed (h : t.Edited D t') : t.Renamed t' where
  size := h.size
  names := h.names
  marks := h.marks
  entities x e he := by
    obtain ⟨e', he', hedited⟩ := h.entities x e he
    exact ⟨e', he', hedited.renamed⟩

/-- No entity has come. -/
theorem entity_before (h : t.Edited D t') {e' : Entity} (he' : t'.entity? x = some e') :
    ∃ e, t.entity? x = some e ∧ e.EditedBy t (D x) e' := by
  obtain ⟨e, he, _⟩ := h.renamed.entity_before he'
  obtain ⟨e₁, he₁, hedited⟩ := h.entities x e he
  obtain rfl := Option.some.inj (he₁.symm.trans he')
  exact ⟨e, he, hedited⟩

/-- What is in a place before and behind the edits. -/
theorem at_place (h : t.Edited D t') (x : EntityId) :
    (t.entity? x = none ∧ t'.entity? x = none) ∨
      ∃ e e', t.entity? x = some e ∧ t'.entity? x = some e' ∧ e.EditedBy t (D x) e' := by
  cases he : t.entity? x with
  | some e =>
      obtain ⟨e', he', hedited⟩ := h.entities x e he
      exact .inr ⟨e, e', rfl, he', hedited⟩
  | none =>
      refine .inl ⟨rfl, Option.eq_none_iff_forall_not_mem.mpr fun e' he' => ?_⟩
      obtain ⟨e, he₁, _⟩ := h.entity_before he'
      cases he.symm.trans he₁

/-- An entity is edited further. -/
theorem set {e e' : Entity} (h : t.Edited D t') (he : t'.entity? x = some e)
    (hedited : e.EditedBy t' (D x) e') : t.Edited D (t'.set x e') where
  size := (t'.size_set x e').trans h.size
  names := h.names
  marks y := (t'.isInUse_set x y e').trans (h.marks y)
  entities y d hd := by
    obtain ⟨d', hd', hbefore⟩ := h.entities y d hd
    by_cases hyx : y = x
    · subst hyx
      obtain rfl := Option.some.inj (hd'.symm.trans he)
      exact ⟨e', entity?_set_self (lt_of_entity? he) e', hbefore.trans (hedited.congr h.renamed)⟩
    · exact ⟨d', (t'.entity?_set_of_ne hyx e').trans hd', hbefore⟩

/-- A selection is for the same entities all the time. -/
theorem isFor_iff (h : t.Edited D t') {s : Script.Selection} : s.IsFor t' x ↔ s.IsFor t x := by
  constructor
  · rintro ⟨e', he', hkind, hkey⟩
    obtain ⟨e, he, hedited⟩ := h.entity_before he'
    have hrenamed := hedited.renamed
    exact ⟨e, he, hrenamed.kind ▸ hkind, hrenamed.key ▸ hkey⟩
  · rintro ⟨e, he, hkind, hkey⟩
    obtain ⟨e', he', hedited⟩ := h.entities x e he
    have hrenamed := hedited.renamed
    exact ⟨e', he', hrenamed.kind.symm ▸ hkind, hrenamed.key.symm ▸ hkey⟩

end SymbolTable.Edited

/-! ## Running items -/

namespace Compilation

open Script (Action Block Directed Edit Item Selection)

variable {t : SymbolTable} {D : EntityId → Edit → Prop} {c : Compilation} {file : String}

@[simp] theorem table_report (c : Compilation) (issue : Issue) (at_ : Location) :
    (c.report issue at_).table = c.table := rfl

/-- The copy that a block edits comes from its entity by edits of the block, and the
table stays. -/
theorem editCopy_spec (file : String) (actions : List Action) (e : Entity) (c : Compilation) :
    (editCopy file actions e c).1.table = c.table ∧
      ∀ e', (editCopy file actions e c).2 = some e' →
        e.EditedBy c.table (fun edit => ∃ a ∈ actions, a.effect = .edit edit) e' := by
  induction actions generalizing e c with
  | nil =>
    refine ⟨rfl, fun e' he' => ?_⟩
    cases he'
    exact .refl
  | cons action rest ih =>
    have hlater : ∀ {t e e'}, Entity.EditedBy t (fun edit => ∃ a ∈ rest, a.effect = .edit edit) e e' →
        e.EditedBy t (fun edit => ∃ a ∈ action :: rest, a.effect = .edit edit) e' := fun h =>
      h.imp fun edit ⟨a, ha, hedit⟩ => ⟨a, List.mem_cons_of_mem action ha, hedit⟩
    unfold editCopy
    split
    next => exact ⟨rfl, fun _ he' => nomatch he'⟩
    next =>
      split
      next =>
        obtain ⟨htable, hcopy⟩ := ih e c
        exact ⟨htable, fun e' he' => hlater (hcopy e' he')⟩
      next edit hedit =>
        split
        next e₁ happly =>
          obtain ⟨htable, hcopy⟩ := ih e₁ c
          refine ⟨htable, fun e' he' => .head ⟨edit, ?_, happly⟩ (hlater (hcopy e' he'))⟩
          exact ⟨action, List.mem_cons_self, hedit⟩
        next issue _ =>
          obtain ⟨htable, hcopy⟩ := ih e (c.report issue ⟨file, action.line⟩)
          rw [table_report] at htable hcopy
          exact ⟨htable, fun e' he' => hlater (hcopy e' he')⟩

theorem editOne_edited (h : t.Edited D c.table) {s : Selection} {id : EntityId} (hD : D id s.edit)
    (line : Nat) : t.Edited D (editOne file s line c id).table := by
  unfold editOne
  split
  next => exact h
  next =>
    split
    next => exact h
    next e he =>
      split
      next e' happly => exact h.set he (.single ⟨s.edit, hD, happly⟩)
      next => rwa [table_report]

theorem isFor_of_mem_selected {s : Selection} {id : EntityId} (h : id ∈ c.selected s) :
    s.IsFor c.table id := by
  have hany := (List.mem_filter.mp h).2
  cases he : c.table.entity? id with
  | none =>
      rw [he] at hany
      cases hany
  | some e =>
      rw [he, Option.any_some, Bool.and_eq_true] at hany
      exact ⟨e, he, hany⟩

theorem applySelection_edited (h : t.Edited D c.table) {s : Selection}
    (hD : ∀ x, s.IsFor t x → D x s.edit) (line : Nat) :
    t.Edited D (c.applySelection file s line).table := by
  have hids : ∀ id ∈ c.selected s, D id s.edit :=
    fun id hid => hD id (h.isFor_iff.mp (isFor_of_mem_selected hid))
  unfold applySelection
  generalize c.selected s = ids at hids
  induction ids generalizing c with
  | nil => exact h
  | cons id ids ih =>
    obtain ⟨hid, hids⟩ := List.forall_mem_cons.mp hids
    exact ih (editOne_edited h hid line) hids

theorem applySelections_edited (h : t.Edited D c.table) {actions : List Action}
    (hD : ∀ a ∈ actions, ∀ s, a.effect = .select s → ∀ x, s.IsFor t x → D x s.edit) :
    t.Edited D (c.applySelections file actions).table := by
  unfold applySelections
  induction actions generalizing c with
  | nil => exact h
  | cons action actions ih =>
    obtain ⟨hfirst, hrest⟩ := List.forall_mem_cons.mp hD
    refine ih ?_ hrest
    dsimp only
    split
    next s hs =>
      split
      next => exact h
      next => exact applySelection_edited h (hfirst s hs) action.line
    next => exact h

theorem applyBlock_edited (h : t.Edited D c.table) {b : Block}
    (hD : ∀ x edit, Item.Directs t x edit (.block b) → D x edit) :
    t.Edited D (c.applyBlock file b).table := by
  unfold applyBlock
  split
  next => rwa [table_report]
  next id hid =>
    split
    next => exact h
    next e he =>
      obtain ⟨htable, hcopy⟩ := editCopy_spec file b.actions e c
      split
      next edited hedited =>
        rw [hedited] at htable
        exact htable ▸ h
      next edited e' hedited =>
        rw [hedited] at htable hcopy
        dsimp only at htable
        refine applySelections_edited ?_ fun a ha s hs x hx => hD x s.edit (.among ha hs hx)
        unfold commit
        split
        next =>
          have hname : t.lookupType? b.name = some id := by
            rw [← hid, SymbolTable.lookupType?_congr h.names]
          rw [htable]
          refine h.set he ((hcopy e' rfl).imp ?_)
          rintro edit ⟨a, ha, hedit⟩
          exact hD id edit (.block hname ha hedit)
        next => exact htable ▸ h

theorem applyItem_edited (h : t.Edited D c.table) {item : Item}
    (hD : ∀ x edit, item.Directs t x edit → D x edit) :
    t.Edited D (c.applyItem file item).table := by
  cases item with
  | block b => exact applyBlock_edited h hD
  | global s line => exact applySelection_edited h (fun x hx => hD x s.edit (.global hx)) line

end Compilation

/-! ## Running scripts -/

section Runs

variable {t : SymbolTable} {D : EntityId → Script.Edit → Prop}

/-- A run that does nothing but edit entities, each by the edits directed at it. -/
def EditsOnly {α : Type} (t : SymbolTable) (D : EntityId → Script.Edit → Prop)
    (action : CompileM α) : Prop :=
  EndsAlong (fun c c' => t.Edited D c.table → t.Edited D c'.table) action

namespace EditsOnly

theorem bind {α β : Type} {x : CompileM α} {f : α → CompileM β} (hx : EditsOnly t D x)
    (hf : ∀ a, EditsOnly t D (f a)) : EditsOnly t D (x >>= f) :=
  EndsAlong.bind (fun _ _ _ h h' hedited => h' (h hedited)) hx hf

theorem forM {α : Type} {f : α → CompileM PUnit} {as : List α}
    (h : ∀ a ∈ as, EditsOnly t D (f a)) : EditsOnly t D (as.forM f) :=
  EndsAlong.forM (fun _ _ _ h h' hedited => h' (h hedited)) (fun _ hedited => hedited) h

theorem checkLimit : EditsOnly t D checkLimit := endsAlong_checkLimit fun _ hedited => hedited

end EditsOnly

theorem Script.run_editsOnly {script : Script}
    (hD : ∀ item ∈ script.items, ∀ x edit, item.Directs t x edit → D x edit) :
    EditsOnly t D script.run := by
  refine .bind (.forM fun item hitem => ?_) fun _ => .checkLimit
  refine .bind .checkLimit fun _ => EndsAlong.update fun c hc => ?_
  exact Compilation.applyItem_edited hc (hD item hitem)

end Runs

/-- Scripts do nothing but edit entities, each by the edits directed at it, however they end. -/
theorem runScripts_editsOnly (t : SymbolTable) (sources : List Script.Source) :
    EditsOnly t (Script.Directed sources t) (runScripts sources) := by
  refine .forM fun source hsource => ?_
  unfold Script.Source.run
  have hread : ∀ script, (Script.read source).1 = some script → ∀ item ∈ script.items,
      ∀ x edit, item.Directs t x edit → Script.Directed sources t x edit :=
    fun script hscript item hitem x edit hedit =>
      ⟨source, hsource, script, hscript, item, hitem, hedit⟩
  generalize Script.read source = r at hread
  obtain ⟨script, reports⟩ := r
  dsimp only at hread ⊢
  refine .bind (EndsAlong.update fun c hc => ?_) fun _ => ?_
  · induction reports generalizing c with
    | nil => exact hc
    | cons r reports ih => exact ih (c.report r.1 ⟨source.file, r.2⟩) hc
  · cases script with
    | some script => exact .bind (Script.run_editsOnly (hread script rfl)) fun _ => .checkLimit
    | none => exact .checkLimit

theorem runScripts_edited (t : SymbolTable) (sources : List Script.Source) :
    Keeps (fun c => t.Edited (Script.Directed sources t) c.table) (runScripts sources) :=
  EndsAlong.keeps (runScripts_editsOnly t sources)

/-- Scripts do nothing but rename. -/
theorem runScripts_renamed {sources : List Script.Source} {c c' : Compilation} {u : Unit}
    (h : runScripts sources c = .ok u c') : c.table.Renamed c'.table :=
  (runScripts_edited c.table sources c (.refl _) u c' h).renamed

end IdlModel
