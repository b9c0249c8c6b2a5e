import IdlModel.Proofs.ScriptBlocks
import IdlModel.Proofs.StageRuns

/-!
# Handlers of events

An event is declared with the name that its handler has at that moment.  The handler is
the attribute whose IDL name is `on` and the name of the event, if there is one.  It can
get another name later, and the event keeps the old one.

*Renaming.*  A rename numbers the constants of a name before the attributes of that name.
That settles the name that the first attribute gets: `Members.attribute?_rename`.

*Edits.*  An edit renames members, or declares an event, or leaves handlers and events
alone: `Script.Edit.apply_treats`.  So the handler has the last name that the edits give to
it, and each event records the one it had before the event: `Script.Edit.applyAll_treated`.

*Scripts.*  The handlers that are recorded stay accurate if and only if no handler gets another
name once its event is there.
-/

namespace IdlModel

open Script (Directed Edit)
open Syntax (Document)

/-! ## Renaming -/

/-- A list of actions runs one after the other. -/
theorem mapM_cons_run {σ α β : Type} (f : α → StateM σ β) (a : α) (as : List α) (s : σ) :
    ((a :: as).mapM f).run s =
      (((f a).run s).1 :: ((as.mapM f).run ((f a).run s).2).1,
        ((as.mapM f).run ((f a).run s).2).2) := by
  rw [List.mapM_cons]
  rfl

section Renaming

variable (member newName : String) {α : Type} (idl name : α → String) (put : α → String → α)

theorem put_renameOne_run (x : α) (n : Nat) :
    (do return put x (← renameOne member newName (idl x) (name x)) : StateM Nat α).run n =
      if idl x = member then (put x (renamed newName n), n + 1) else (put x (name x), n) := by
  unfold renameOne
  split <;> rfl

/-- A rename counts the parts that are declared under the name. -/
theorem count_mapM_renameOne (xs : List α) (n : Nat) :
    ((xs.mapM fun x => do
      return put x (← renameOne member newName (idl x) (name x)) : StateM Nat (List α)).run n).2 =
      n + xs.countP (idl · == member) := by
  induction xs generalizing n with
  | nil => rfl
  | cons x xs ih =>
    rw [mapM_cons_run, put_renameOne_run, List.countP_cons, ih]
    by_cases hmember : idl x = member
    · rw [if_pos hmember, if_pos (beq_iff_eq.mpr hmember), Nat.add_right_comm, Nat.add_assoc]
    · rw [if_neg hmember, if_neg (mt beq_iff_eq.mp hmember), Nat.add_zero]

/-- The first part of a name is the first one to be renamed. -/
theorem find?_mapM_renameOne (hidl : ∀ x s, idl (put x s) = idl x)
    (hname : ∀ x s, name (put x s) = s) (key : String) (xs : List α) (n : Nat) :
    (((xs.mapM fun x => do
      return put x (← renameOne member newName (idl x) (name x)) :
        StateM Nat (List α)).run n).1.find? (idl · == key)).map name =
      (xs.find? (idl · == key)).map fun x =>
        if key = member then renamed newName n else name x := by
  induction xs generalizing n with
  | nil => rfl
  | cons x xs ih =>
    have hkey : ∀ s, (idl (put x s) == key) = (idl x == key) := fun s => by rw [hidl]
    rw [mapM_cons_run, put_renameOne_run, List.find?_cons, List.find?_cons]
    cases hfirst : idl x == key with
    | true =>
        obtain rfl := eq_of_beq hfirst
        by_cases hmember : idl x = member
        · simp only [if_pos hmember, hidl, beq_self_eq_true, Option.map_some, hname]
        · simp only [if_neg hmember, hidl, beq_self_eq_true, Option.map_some, hname]
    | false =>
        -- A part that is renamed moves the number on, but then the key is another name.
        by_cases hmember : idl x = member
        · have hother : key ≠ member := fun h => ne_of_beq_false hfirst (hmember.trans h.symm)
          simp only [if_pos hmember, hkey, hfirst, ih, if_neg hother]
        · simp only [if_neg hmember, hkey, hfirst, ih]

/-- The first attribute of a name gets the number behind those of the constants. -/
theorem Members.attribute?_rename (d : Members) (key : String) :
    ((d.rename member newName).1.attributes.find? (·.idl == key)).map (·.name) =
      (d.attributes.find? (·.idl == key)).map fun a =>
        if key = member then renamed newName (d.constants.countP (·.idl == member))
        else a.name := by
  rw [← Nat.zero_add (d.constants.countP _), ← count_mapM_renameOne member newName Constant.idl
    Constant.name (fun (x : Constant) name => { x with name }) d.constants 0]
  exact find?_mapM_renameOne member newName Attribute.idl Attribute.name
    (fun (x : Attribute) name => { x with name }) (fun _ _ => rfl) (fun _ _ => rfl) key _ _

end Renaming

/-! ## Names behind edits -/

/-- The name that an edit gives to a member. -/
def Script.Edit.newName? (member : String) : Edit → Option String
  | .rename target newName => if member = target then some newName else none
  | _ => none

namespace Interface

/-- How many constants are declared under a name. -/
def constantsNamed (d : Interface) (name : String) : Nat :=
  d.members.constants.countP (·.idl == name)

/-- The name of the handler of an event behind some edits.  The last name that they give to
it counts. -/
def handlerAfter (d : Interface) (event : String) (edits : List Edit) : Option String :=
  (Entity.handler? d event).map fun name =>
    match (edits.filterMap (Edit.newName? ("on" ++ event))).getLast? with
    | some newName => renamed newName (d.constantsNamed ("on" ++ event))
    | none => name

/-- An event of a name is there, with a handler. -/
def Records (d : Interface) (event : String) (handler : Option String) : Prop :=
  ∃ v ∈ d.events, v.name = event ∧ v.handler = handler

/-- Every event has the name of its handler. -/
def HandlersAccurate (d : Interface) : Prop :=
  ∀ v ∈ d.events, v.handler = Entity.handler? d v.name

/-- Behind some edits each handler has the name that it had when its event came. -/
structure KeepsHandlers (d : Interface) (edits : List Edit) : Prop where
  /-- The event was there at first. -/
  first : ∀ v ∈ d.events, d.handlerAfter v.name edits = Entity.handler? d v.name
  /-- One of the edits declares it. -/
  later : ∀ before event type after, edits = before ++ .event event type :: after →
    d.handlerAfter event edits = d.handlerAfter event before

variable {d d' : Interface} {edit : Edit} {event : String}

theorem handlersAccurate_iff :
    d.HandlersAccurate ↔ ∀ event handler, d.Records event handler →
      handler = Entity.handler? d event := by
  constructor
  · rintro h _ _ ⟨v, hv, rfl, rfl⟩
    exact h v hv
  · exact fun h v hv => h v.name v.handler ⟨v, hv, rfl, rfl⟩

theorem handlerAfter_of_forall_none {edits : List Edit}
    (h : ∀ edit ∈ edits, edit.newName? ("on" ++ event) = none) :
    d.handlerAfter event edits = Entity.handler? d event := by
  rw [handlerAfter, List.filterMap_eq_nil_iff.mpr h]
  exact Option.map_id'

@[simp] theorem handlerAfter_nil (d : Interface) (event : String) :
    d.handlerAfter event [] = Entity.handler? d event :=
  handlerAfter_of_forall_none fun _ hedit => nomatch hedit

/-- An edit that gives the handler a name. -/
theorem handlerAfter_of_some {newName : String} (h : edit.newName? ("on" ++ event) = some newName) :
    d.handlerAfter event [edit] =
      (Entity.handler? d event).map fun _ =>
        renamed newName (d.constantsNamed ("on" ++ event)) := by
  simp only [handlerAfter, List.filterMap_cons, h, List.filterMap_nil, List.getLast?_singleton]

theorem handlerAfter_of_none (h : edit.newName? ("on" ++ event) = none) :
    d.handlerAfter event [edit] = Entity.handler? d event :=
  handlerAfter_of_forall_none (List.forall_mem_singleton.mpr h)

/-- Edits behind a first one. -/
theorem handlerAfter_cons (hfirst : Entity.handler? d' event = d.handlerAfter event [edit])
    (hconstants : d'.constantsNamed ("on" ++ event) = d.constantsNamed ("on" ++ event))
    (edits : List Edit) : d'.handlerAfter event edits = d.handlerAfter event (edit :: edits) := by
  cases hname : edit.newName? ("on" ++ event) with
  | none =>
      rw [handlerAfter_of_none hname] at hfirst
      simp only [handlerAfter, hfirst, hconstants, List.filterMap_cons, hname]
  | some newName =>
      rw [handlerAfter_of_some hname] at hfirst
      simp only [handlerAfter, hfirst, hconstants, List.filterMap_cons, hname, List.getLast?_cons,
        Option.map_map]
      cases (edits.filterMap (Edit.newName? ("on" ++ event))).getLast? <;> rfl

/-- Attributes of the same names handle the same events. -/
theorem handler?_congr (h : d'.members.attributes.map (fun a => (a.idl, a.name)) =
    d.members.attributes.map fun a => (a.idl, a.name)) :
    Entity.handler? d' = Entity.handler? d := by
  have hfind : ∀ d : Interface, Entity.handler? d = fun event =>
      ((d.members.attributes.map fun a => (a.idl, a.name)).find? (·.1 == "on" ++ event)).map
        (·.2) := by
    intro d
    funext event
    rw [List.find?_map, Option.map_map]
    rfl
  rw [hfind, hfind, h]

end Interface

/-! ## One edit -/

namespace Script.Edit

variable {t : SymbolTable} {d d' : Interface} {e' : Entity} {edit : Edit} {event : String}

/-- What an edit makes of the events of an interface and of their handlers. -/
def Treats (d d' : Interface) : Edit → Prop
  | .rename member newName => d' = { d with members := (d.members.rename member newName).1 }
  | .event event _ => ∃ v : Event, v.name = event ∧ v.handler = Entity.handler? d event ∧
      d' = { d with events := d.events ++ [v] }
  | _ => d'.events = d.events ∧ Entity.handler? d' = Entity.handler? d

theorem events_setProperty {name value : String}
    (h : Entity.setProperty (.interface d) name value = .ok e') :
    ∃ d', e' = .interface d' ∧ d'.events = d.events ∧ Entity.handler? d' = Entity.handler? d := by
  obtain ⟨p, rfl⟩ := Entity.setProperty_ok h
  cases p <;> exact ⟨_, rfl, rfl, rfl⟩

theorem apply_treats (h : edit.apply t (.interface d) = .ok e') :
    ∃ d', e' = .interface d' ∧ edit.Treats d d' := by
  cases edit with
  | setProperty name value => exact events_setProperty h
  | replace property old new =>
      obtain ⟨p, hp⟩ := Entity.findProperty_bind_ok h
      exact events_setProperty hp
  | rename member newName =>
      unfold apply Entity.renameMembers at h
      dsimp only at h
      split at h
      next => cases h
      next members _ _ hrename =>
        cases h
        refine ⟨_, rfl, ?_⟩
        rw [Treats, hrename]
  | changeType member type =>
      obtain ⟨-, rfl⟩ := Entity.changeType_ok h
      refine ⟨_, rfl, rfl, Interface.handler?_congr ?_⟩
      exact map_map_of_keeps (fun a => by split <;> rfl) d.members.attributes
  | patch =>
      cases h
      exact ⟨_, rfl, rfl, rfl⟩
  | event name type =>
      unfold apply Entity.addEvent at h
      dsimp only at h
      split at h
      next =>
        cases h
        exact ⟨_, rfl, _, rfl, rfl, rfl⟩
      next => cases h

/-- No edit declares a constant. -/
theorem constantsNamed_apply (h : edit.apply t (.interface d) = .ok (.interface d'))
    (name : String) : d'.constantsNamed name = d.constantsNamed name := by
  have hcount : ∀ d : Interface, d.constantsNamed name =
      d.members.outline.constants.countP (·.idl == name) := by
    intro d
    rw [Interface.constantsNamed, Members.outline, List.countP_map]
    rfl
  obtain ⟨-, hmembers, -⟩ := Interface.mk.inj (Entity.interface.inj (apply_outline h))
  rw [hcount, hcount, hmembers]

theorem Treats.handler?_eq (h : edit.Treats d d') (event : String) :
    Entity.handler? d' event = d.handlerAfter event [edit] := by
  cases edit with
  | rename member newName =>
      obtain rfl : d' = _ := h
      have hrename := d.members.attribute?_rename member newName ("on" ++ event)
      by_cases hmember : "on" ++ event = member
      · have hname : (Edit.rename member newName).newName? ("on" ++ event) = some newName :=
          if_pos hmember
        simp only [if_pos hmember] at hrename
        rw [Interface.handlerAfter_of_some hname, Entity.handler?, hrename, hmember,
          Entity.handler?, Option.map_map, hmember]
        rfl
      · have hname : (Edit.rename member newName).newName? ("on" ++ event) = none :=
          if_neg hmember
        simp only [if_neg hmember] at hrename
        rw [Interface.handlerAfter_of_none hname]
        exact hrename
  | event name type =>
      obtain ⟨v, -, -, rfl⟩ := h
      have hname : (Edit.event name type).newName? ("on" ++ event) = none := rfl
      rw [Interface.handlerAfter_of_none hname]
      rfl
  | setProperty | changeType | patch | replace =>
      rw [h.2]
      exact (Interface.handlerAfter_of_forall_none (by simp [newName?])).symm

theorem Treats.records_iff (h : edit.Treats d d') {handler : Option String} :
    d'.Records event handler ↔ d.Records event handler ∨
      (∃ type, edit = .event event type) ∧ handler = Entity.handler? d event := by
  cases edit with
  | event name type =>
      obtain ⟨w, rfl, hw, rfl⟩ := h
      constructor
      · rintro ⟨v, hv, rfl, rfl⟩
        rcases List.mem_append.mp hv with hv | hv
        · exact .inl ⟨v, hv, rfl, rfl⟩
        · obtain rfl := List.mem_singleton.mp hv
          exact .inr ⟨⟨type, rfl⟩, hw⟩
      · rintro (⟨v, hv, rfl, rfl⟩ | ⟨⟨_, heq⟩, rfl⟩)
        · exact ⟨v, List.mem_append_left _ hv, rfl, rfl⟩
        · cases heq
          exact ⟨w, List.mem_append_right _ (List.mem_singleton_self w), rfl, hw⟩
  | rename member newName =>
      obtain rfl : d' = _ := h
      simp [Interface.Records]
  | setProperty | changeType | patch | replace => simp [Interface.Records, h.1]

/-! ## Edits one after the other -/

/-- What edits make of the events of an interface and of their handlers. -/
structure Treated (edits : List Edit) (d d' : Interface) : Prop where
  handler : ∀ event, Entity.handler? d' event = d.handlerAfter event edits
  records : ∀ event handler, d'.Records event handler ↔ d.Records event handler ∨
    ∃ before type after, edits = before ++ .event event type :: after ∧
      handler = d.handlerAfter event before

namespace Treated

variable {d₁ : Interface} {edits : List Edit}

theorem nil (d : Interface) : Treated [] d d where
  handler event := (d.handlerAfter_nil event).symm
  records event handler := by simp

theorem cons (hfirst : edit.Treats d d₁)
    (hconstants : ∀ name, d₁.constantsNamed name = d.constantsNamed name)
    (hrest : Treated edits d₁ d') : Treated (edit :: edits) d d' := by
  have hcons : ∀ event edits, d₁.handlerAfter event edits = d.handlerAfter event (edit :: edits) :=
    fun event => Interface.handlerAfter_cons (hfirst.handler?_eq event) (hconstants _)
  refine ⟨fun event => (hrest.handler event).trans (hcons event edits), fun event handler => ?_⟩
  rw [hrest.records, hfirst.records_iff, or_assoc]
  refine or_congr_right ⟨?_, ?_⟩
  · rintro (⟨⟨type, rfl⟩, rfl⟩ | ⟨before, type, after, rfl, rfl⟩)
    · exact ⟨[], type, edits, rfl, (d.handlerAfter_nil event).symm⟩
    · exact ⟨edit :: before, type, after, rfl, hcons event before⟩
  · rintro ⟨before, type, after, heq, rfl⟩
    cases before with
    | nil =>
        obtain ⟨rfl, rfl⟩ := List.cons.inj heq
        exact .inl ⟨⟨type, rfl⟩, d.handlerAfter_nil event⟩
    | cons first before =>
        obtain ⟨rfl, rfl⟩ := List.cons.inj heq
        exact .inr ⟨before, type, after, rfl, (hcons event before).symm⟩

/-- Handlers that were accurate still are if and only if the edits keep them. -/
theorem handlersAccurate_iff (h : Treated edits d d') (haccurate : d.HandlersAccurate) :
    d'.HandlersAccurate ↔ d.KeepsHandlers edits := by
  rw [Interface.handlersAccurate_iff]
  constructor
  · refine fun hafter => ⟨fun v hv => ?_, fun before event type after heq => ?_⟩
    · have hrecords := (h.records v.name v.handler).mpr (.inl ⟨v, hv, rfl, rfl⟩)
      rw [← haccurate v hv, hafter _ _ hrecords, h.handler]
    · have hrecords := (h.records event _).mpr (.inr ⟨before, type, after, heq, rfl⟩)
      rw [hafter _ _ hrecords, h.handler]
  · intro hkeeps event handler hrecords
    rw [h.handler]
    rcases (h.records event handler).mp hrecords with
      ⟨v, hv, rfl, rfl⟩ | ⟨before, type, after, heq, rfl⟩
    · rw [haccurate v hv, hkeeps.first v hv]
    · rw [hkeeps.later before event type after heq]

end Treated

theorem applyAll_treated {edits : List Edit} (h : applyAll t edits (.interface d) = .ok e') :
    ∃ d', e' = .interface d' ∧ Treated edits d d' := by
  induction edits generalizing d with
  | nil =>
    cases h
    exact ⟨d, rfl, .nil d⟩
  | cons edit edits ih =>
    cases happly : edit.apply t (.interface d) with
    | ok e₁ =>
        rw [applyAll_cons_ok happly] at h
        obtain ⟨d₁, rfl, hfirst⟩ := apply_treats happly
        obtain ⟨d', rfl, hrest⟩ := ih h
        exact ⟨d', rfl, .cons hfirst (constantsNamed_apply happly) hrest⟩
    | error issue =>
        rw [applyAll_cons_error happly] at h
        cases h

end Script.Edit

/-! ## Scripts -/

namespace SymbolTable

variable {t t' : SymbolTable} {D : EntityId → Edit → Prop}

/-- Every event of an interface has the name of its handler. -/
def HandlersAccurate (t : SymbolTable) : Prop :=
  ∀ x d, t.entity? x = some (.interface d) → d.HandlersAccurate

/-- Without events there is no handler. -/
theorem Resolved.handlersAccurate (h : t.Resolved) : t.HandlersAccurate := by
  intro x d hd v hv
  obtain ⟨-, -, hevents⟩ := h.declared x _ hd
  rw [show d.events = [] from hevents] at hv
  cases hv

/-- The edits that are made at each entity. -/
theorem Edited.exists_edits (h : t.Edited D t') : ∃ edits : EntityId → List Edit,
    (∀ x, ∀ edit ∈ edits x, D x edit) ∧
      ∀ x e, t.entity? x = some e →
        ∃ e', t'.entity? x = some e' ∧ Edit.applyAll t (edits x) e = .ok e' := by
  have hplace : ∀ x, ∃ edits : List Edit, (∀ edit ∈ edits, D x edit) ∧
      ∀ e, t.entity? x = some e →
        ∃ e', t'.entity? x = some e' ∧ Edit.applyAll t edits e = .ok e' := by
    intro x
    rcases h.at_place x with ⟨he, -⟩ | ⟨e, e', he, he', hedited⟩
    · exact ⟨[], fun _ hedit => (nomatch hedit), fun e he' => nomatch he.symm.trans he'⟩
    · obtain ⟨edits, hD, hall⟩ := Edit.applyAll_of_editedBy hedited
      refine ⟨edits, hD, fun e₁ he₁ => ⟨e', he', ?_⟩⟩
      obtain rfl := Option.some.inj (he.symm.trans he₁)
      exact hall
  choose edits hD hedits using hplace
  exact ⟨edits, hD, hedits⟩

/-- Handlers that were accurate still are if and only if the edits at each interface keep
them. -/
theorem Edited.handlersAccurate_iff (h : t.Edited D t') (haccurate : t.HandlersAccurate)
    {edits : EntityId → List Edit} (hedits : ∀ x e, t.entity? x = some e →
      ∃ e', t'.entity? x = some e' ∧ Edit.applyAll t (edits x) e = .ok e') :
    t'.HandlersAccurate ↔
      ∀ x d, t.entity? x = some (.interface d) → d.KeepsHandlers (edits x) := by
  constructor
  · intro hafter x d hd
    obtain ⟨e', he', hall⟩ := hedits x _ hd
    obtain ⟨d', rfl, htreated⟩ := Edit.applyAll_treated hall
    exact (htreated.handlersAccurate_iff (haccurate x d hd)).mp (hafter x d' he')
  · intro hkeeps x d' hd'
    obtain ⟨e, he, hedited⟩ := h.entity_before hd'
    cases e with
    | interface d =>
        obtain ⟨_, he', hall⟩ := hedits x _ he
        obtain ⟨d₁, rfl, htreated⟩ := Edit.applyAll_treated hall
        obtain rfl := Entity.interface.inj (Option.some.inj (hd'.symm.trans he'))
        exact (htreated.handlersAccurate_iff (haccurate x d he)).mpr (hkeeps x d he)
    | dictionary | enumeration | callback => cases hedited.renamed.kind

end SymbolTable

/-- Edits among which there is no name for a handler keep the handlers. -/
theorem Interface.keepsHandlers_of_none {d : Interface} {edits : List Edit}
    (hfirst : ∀ v ∈ d.events, ∀ newName, .rename ("on" ++ v.name) newName ∉ edits)
    (hlater : ∀ event type, .event event type ∈ edits →
      ∀ newName, .rename ("on" ++ event) newName ∉ edits) : d.KeepsHandlers edits := by
  have hnone : ∀ event, (∀ newName, .rename ("on" ++ event) newName ∉ edits) →
      ∀ edit ∈ edits, edit.newName? ("on" ++ event) = none := by
    intro event hrename edit hedit
    cases edit with
    | rename member newName =>
        refine if_neg fun hmember => ?_
        subst hmember
        exact hrename newName hedit
    | _ => rfl
  refine ⟨fun v hv => handlerAfter_of_forall_none (hnone v.name (hfirst v hv)), ?_⟩
  rintro before event type after rfl
  have hall := hnone event (hlater event type (List.mem_append_right _ List.mem_cons_self))
  rw [handlerAfter_of_forall_none hall, handlerAfter_of_forall_none fun edit hedit =>
    hall edit (List.mem_append_left _ hedit)]

/-- Scripts change each interface by edits that they direct at it.  Handlers that were accurate
still are if and only if at every interface the edits leave each handler the name that it had
when its event came.  That holds if no rename is directed at the handler of an event that is
there before or that the scripts direct at the interface. -/
theorem runScripts_handlersAccurate_iff {c : Compilation} (haccurate : c.table.HandlersAccurate)
    (sources : List Script.Source) :
    let c' := endState (runScripts sources c)
    (∃ edits : EntityId → List Edit,
      (∀ x, ∀ edit ∈ edits x, Directed sources c.table x edit) ∧
        (∀ x e, c.table.entity? x = some e →
          ∃ e', c'.table.entity? x = some e' ∧ Edit.applyAll c.table (edits x) e = .ok e') ∧
        (c'.table.HandlersAccurate ↔
          ∀ x d, c.table.entity? x = some (.interface d) → d.KeepsHandlers (edits x))) ∧
      ((∀ x d, c.table.entity? x = some (.interface d) → ∀ event,
        ((∃ v ∈ d.events, v.name = event) ∨
          ∃ type, Directed sources c.table x (.event event type)) →
          ∀ newName, ¬ Directed sources c.table x (.rename ("on" ++ event) newName)) →
        c'.table.HandlersAccurate) := by
  intro c'
  have hedited : c.table.Edited (Directed sources c.table) c'.table :=
    runScripts_editsOnly c.table sources c (.refl _)
  obtain ⟨edits, hD, hedits⟩ := hedited.exists_edits
  have hiff := hedited.handlersAccurate_iff haccurate hedits
  refine ⟨⟨edits, hD, hedits, hiff⟩, fun hnone => hiff.mpr fun x d hd => ?_⟩
  refine Interface.keepsHandlers_of_none ?_ ?_
  · exact fun v hv newName hmem => hnone x d hd v.name (.inl ⟨v, hv, rfl⟩) newName (hD x _ hmem)
  · exact fun event type hevent newName hmem =>
      hnone x d hd event (.inr ⟨type, hD x _ hevent⟩) newName (hD x _ hmem)

/-- The definitions `interface MouseEvent {};` and
`interface Node { attribute any onclick; };`. -/
def clickable : Document :=
  { name := "node.idl"
    definitions :=
      [.interface { name := "MouseEvent" },
      .interface
        { name := "Node", members := [.attribute { name := "onclick", type := .named "any" }] }] }

/-- A script that declares an event and then renames its handler. -/
def renameHandler : Script.Source :=
  { file := "node.tr", text := "## Node\n@event click = MouseEvent\nonclick = Handler\n" }

/-- The answer is the number of errors, and for `Node` its events and the name of the attribute. -/
def runRenameHandler : CompileM (Nat × Option (List Event × Option String)) := do
  linkDocuments [clickable]
  runScripts [renameHandler]
  let c ← get
  return (c.log.errorCount, (c.table.interface? ⟨1⟩).map fun d =>
    (d.events, Entity.handler? d "click"))

/-- The event that the script declares. -/
def click : Event :=
  { name := "click", type := ⟨0⟩, handler := some "Onclick", source := ⟨"node.idl", 0⟩ }

theorem runRenameHandler_answer :
    (answer? (runRenameHandler { settings := {} })).map id =
      some (0, some ([click], some "Handler")) := by
  decide +kernel

theorem runScripts_handlersAccurate_iff_clickable :
    ∃ c c' : Compilation, c.table.HandlersAccurate ∧
      runScripts [renameHandler] c = .ok () c' ∧ ∃ edits : EntityId → List Edit,
        (∀ x, ∀ edit ∈ edits x, Directed [renameHandler] c.table x edit) ∧
          (c'.table.HandlersAccurate ↔
            ∀ x d, c.table.entity? x = some (.interface d) → d.KeepsHandlers (edits x)) := by
  obtain ⟨_, _, hruns, -⟩ := ok_of_answer? runRenameHandler_answer
  obtain ⟨⟨⟩, c, hlink, hrest⟩ := bind_ok.mp hruns
  obtain ⟨⟨⟩, c', hrun, -⟩ := bind_ok.mp hrest
  have haccurate := (linkDocuments_resolved hlink).1.handlersAccurate
  obtain ⟨⟨edits, hD, -, hiff⟩, -⟩ := runScripts_handlersAccurate_iff haccurate [renameHandler]
  rw [hrun] at hiff
  exact ⟨c, c', haccurate, hrun, edits, hD, hiff⟩

/-- A script without errors can rename the handler of an event, and the event keeps the name
that it had. -/
theorem exists_handler_outdated :
    ∃ sources c c', c.table.HandlersAccurate ∧ runScripts sources c = .ok () c' ∧
      c'.log.errorCount = 0 ∧ ¬ c'.table.HandlersAccurate := by
  obtain ⟨_, _, hruns, hanswer⟩ := ok_of_answer? runRenameHandler_answer
  obtain ⟨⟨⟩, c, hlink, hrest⟩ := bind_ok.mp hruns
  obtain ⟨⟨⟩, _, hrun, hrest⟩ := bind_ok.mp hrest
  obtain ⟨_, c', hget, hlast⟩ := bind_ok.mp hrest
  obtain ⟨rfl, rfl⟩ := get_ok.mp hget
  obtain ⟨rfl, -⟩ := pure_ok.mp hlast
  obtain ⟨herrors, hnode⟩ := Prod.mk.inj hanswer
  obtain ⟨d, hd, hpair⟩ := Option.map_eq_some_iff.mp hnode
  obtain ⟨hevents, hhandler⟩ := Prod.mk.inj hpair
  refine ⟨[renameHandler], c, c', (linkDocuments_resolved hlink).1.handlersAccurate, hrun, herrors,
    fun hafter => ?_⟩
  have hclick : click ∈ d.events := hevents ▸ List.mem_singleton_self click
  have hold := hafter ⟨1⟩ d (SymbolTable.interface?_eq_some.mp hd) click hclick
  exact absurd (hold.trans hhandler) (by decide)

end IdlModel
