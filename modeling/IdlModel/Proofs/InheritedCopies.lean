import IdlModel.Proofs.InheritedMembers
import IdlModel.Proofs.ScriptRuns

/-!
# Inherited members under scripts

What a dictionary inherits was copied when it was linked, and no edit reaches a copy.

*Overrides.*  The only edit that changes the members of a dictionary is the one that
overrides types, and it changes those of the dictionary that it is directed at.

*Copies.*  So copies and members agree in everything but overrides.  They agree in
overrides too as long as no dictionary that another one inherits from has got one.
-/

namespace IdlModel

open Syntax (Document)
open Script (Directed)

/-! ## Overrides -/

/-- Fields that differ at most in an override that `P` allows for the name. -/
def Field.Overridden (P : (member type : String) → Prop) (d d' : Field) : Prop :=
  d' = d ∨ ∃ type, P d.idl type ∧ d' = { d with typeOverride := some type }

namespace Field.Overridden

variable {P Q : String → String → Prop} {d d' d'' : Field}

theorem refl (d : Field) : d.Overridden P d := .inl rfl

theorem imp (h : d.Overridden P d') (hPQ : ∀ member type, P member type → Q member type) :
    d.Overridden Q d' := by
  rcases h with rfl | ⟨type, htype, rfl⟩
  · exact .refl d'
  · exact .inr ⟨type, hPQ _ _ htype, rfl⟩

/-- The last override counts. -/
theorem trans (h : d.Overridden P d') (h' : d'.Overridden P d'') : d.Overridden P d'' := by
  rcases h with rfl | ⟨type, htype, rfl⟩
  · exact h'
  · rcases h' with rfl | ⟨type', htype', rfl⟩
    · exact .inr ⟨type, htype, rfl⟩
    · exact .inr ⟨type', htype', rfl⟩

end Field.Overridden

/-- Lists of fields that differ at most in overrides. -/
def SameOutlines (ds ds' : List Field) : Prop := ds.map Field.outline = ds'.map Field.outline

theorem SameOutlines.of_overridden {P : String → String → Prop} {ds ds' : List Field}
    (h : List.Forall₂ (Field.Overridden P) ds ds') : SameOutlines ds ds' := by
  induction h with
  | nil => rfl
  | @cons d d' _ _ hfield _ ih =>
      have houtline : d.outline = d'.outline := by
        rcases hfield with rfl | ⟨type, _, rfl⟩ <;> rfl
      rw [SameOutlines, List.map_cons, List.map_cons, houtline, ih]

/-- Lists that are equal behind one another are equal one by one, if their lengths are. -/
theorem forall_eq_of_flatMap_eq {α β : Type} {f g : α → List β} {l : List α}
    (hlength : ∀ a ∈ l, (f a).length = (g a).length) (h : l.flatMap f = l.flatMap g) :
    ∀ a ∈ l, f a = g a := by
  induction l with
  | nil => exact fun _ ha => nomatch ha
  | cons a l ih =>
    obtain ⟨hfirst, hrest⟩ := List.forall_mem_cons.mp hlength
    obtain ⟨heq, htail⟩ := List.append_inj h hfirst
    exact List.forall_mem_cons.mpr ⟨heq, ih hrest htail⟩

variable {t t' : SymbolTable} {e e' : Entity}

/-- An edit overrides at most types of members. -/
theorem Script.Edit.apply_overridden {edit : Script.Edit} (h : edit.apply t e = .ok e') :
    List.Forall₂ (Field.Overridden fun member type => edit = .changeType member type)
      e.fields e'.fields := by
  have hsame : ∀ {P : String → String → Prop} (ds : List Field),
      List.Forall₂ (Field.Overridden P) ds ds := fun ds => List.forall₂_same.mpr fun d _ => .refl d
  rcases apply_cases h with ⟨value, p, rfl⟩ | ⟨member, type, rfl, -, rfl⟩ | ⟨d, m, rfl, -, rfl⟩ |
    ⟨d, v, rfl, -, rfl⟩
  · rw [e.fields_withProperty value p]
    exact hsame _
  · cases e with
    | dictionary d =>
        refine List.forall₂_map_right_iff.mpr (List.forall₂_same.mpr fun field _ => ?_)
        split
        next hmember => exact .inr ⟨type, by rw [hmember], rfl⟩
        next => exact .refl field
    | interface | enumeration | callback => exact hsame _
  · exact hsame _
  · exact hsame _

theorem Entity.EditedBy.overridden {D : Script.Edit → Prop} (h : e.EditedBy t D e') :
    List.Forall₂ (Field.Overridden fun member type => D (.changeType member type))
      e.fields e'.fields := by
  induction h with
  | refl => exact List.forall₂_same.mpr fun d _ => .refl d
  | tail _ hedit ih =>
      obtain ⟨edit, hedit, happly⟩ := hedit
      refine forall₂_comp (fun d d₁ d₂ h h' => h.trans (h'.imp ?_)) ih
        (Script.Edit.apply_overridden happly)
      rintro member type rfl
      exact hedit

/-- A dictionary stays one and inherits what it did. -/
theorem Entity.dictionary_of_outline {d : Dictionary}
    (h : e.outline = (Entity.dictionary d).outline) :
    ∃ d', e = .dictionary d' ∧ d'.inherited = d.inherited := by
  cases e with
  | dictionary d' =>
      obtain ⟨-, -, hinherited, -⟩ := Dictionary.mk.inj (Entity.dictionary.inj h)
      exact ⟨d', rfl, hinherited⟩
  | interface | enumeration | callback => cases h

/-! ## Edited tables -/

namespace SymbolTable

/-- A dictionary in use inherits the members of an entity. -/
def IsInherited (t : SymbolTable) (y : EntityId) : Prop :=
  ∃ x d, t.isInUse x = true ∧ t.entity? x = some (.dictionary d) ∧ y ∈ t.ancestors x

namespace Edited

variable {D : EntityId → Script.Edit → Prop} {x : EntityId} {d : Dictionary} {chain : List EntityId}

theorem fieldsOf (h : t.Edited D t') (x : EntityId) :
    List.Forall₂ (Field.Overridden fun member type => D x (.changeType member type))
      (t.fieldsOf x) (t'.fieldsOf x) := by
  rcases h.at_place x with ⟨he, he'⟩ | ⟨e, e', he, he', hedited⟩
  · rw [SymbolTable.fieldsOf, SymbolTable.fieldsOf, he, he']
    exact .nil
  · rw [fieldsOf_eq he, fieldsOf_eq he']
    exact hedited.overridden

/-- A dictionary inherits what it did, and its members are overridden at most. -/
theorem dictionary (h : t.Edited D t') (hd : t.entity? x = some (.dictionary d)) :
    ∃ d', t'.entity? x = some (.dictionary d') ∧ d'.inherited = d.inherited ∧
      List.Forall₂ (Field.Overridden fun member type => D x (.changeType member type))
        d.members d'.members := by
  obtain ⟨e', he', hedited⟩ := h.entities x _ hd
  obtain ⟨d', rfl, hinherited⟩ := Entity.dictionary_of_outline hedited.outline_eq
  exact ⟨d', he', hinherited, hedited.overridden⟩

theorem dictionary_before (h : t.Edited D t') (hd : t'.entity? x = some (.dictionary d)) :
    ∃ d₀, t.entity? x = some (.dictionary d₀) ∧ d.inherited = d₀.inherited := by
  obtain ⟨e, he, hedited⟩ := h.entity_before hd
  obtain ⟨d₀, rfl, hinherited⟩ := Entity.dictionary_of_outline hedited.outline_eq.symm
  exact ⟨d₀, he, hinherited.symm⟩

theorem lineage (h : t.Edited D t') (hchain : t.Lineage x chain) : t'.Lineage x chain :=
  hchain.congr fun y _ => h.renamed.parentOf?_eq y

/-- Members of ancestors differ in overrides only. -/
theorem inheritance_outline (h : t.Edited D t') (chain : List EntityId) :
    SameOutlines (t.inheritance chain) (t'.inheritance chain) := by
  unfold SameOutlines inheritance
  rw [List.map_flatMap, List.map_flatMap]
  exact List.flatMap_congr fun y _ => SameOutlines.of_overridden (h.fieldsOf y)

/-- What was in step is still in all but overrides. -/
theorem inheritsBy (h : t.Edited D t') (hstep : t.InStep) : t'.InheritsBy SameOutlines := by
  intro x d hused hd
  obtain ⟨d₀, hd₀, hinherited⟩ := h.dictionary_before hd
  obtain ⟨chain, hchain, heq⟩ := hstep x d₀ ((h.marks x).symm.trans hused) hd₀
  refine ⟨chain, h.lineage hchain, ?_⟩
  rw [hinherited, heq]
  exact h.inheritance_outline chain

/-- It is in overrides too if and only if no member that is inherited got one. -/
theorem inStep_iff (h : t.Edited D t') (hstep : t.InStep) :
    t'.InStep ↔ ∀ y, t.IsInherited y → t'.fieldsOf y = t.fieldsOf y := by
  constructor
  · rintro hstep' y ⟨x, d, hused, hd, hy⟩
    obtain ⟨d', hd', hinherited, _⟩ := h.dictionary hd
    obtain ⟨chain, hchain, heq⟩ := hstep x d hused hd
    obtain ⟨chain', hchain', heq'⟩ := hstep' x d' ((h.marks x).trans hused) hd'
    obtain rfl : chain = chain' := by
      rw [← hchain'.ancestors_eq, ← (h.lineage hchain).ancestors_eq]
    rw [hinherited, heq] at heq'
    rw [hchain.ancestors_eq, ← List.mem_reverse] at hy
    exact (forall_eq_of_flatMap_eq (fun z _ => (h.fieldsOf z).length_eq) heq' y hy).symm
  · intro hsame x d hused hd
    obtain ⟨d₀, hd₀, hinherited⟩ := h.dictionary_before hd
    have hused₀ := (h.marks x).symm.trans hused
    obtain ⟨chain, hchain, heq⟩ := hstep x d₀ hused₀ hd₀
    refine ⟨chain, h.lineage hchain, ?_⟩
    rw [hinherited, heq]
    refine List.flatMap_congr fun y hy => (hsame y ⟨x, d₀, hused₀, hd₀, ?_⟩).symm
    rw [hchain.ancestors_eq]
    exact List.mem_reverse.mp hy

end Edited

end SymbolTable

/-! ## Scripts -/

/-- Scripts change no copy, and of members nothing but the overrides that they direct at
the dictionary itself.  So copies and members stay in step in all but overrides.  They
stay so in overrides too if and only if no inherited member changes, which holds if no
override is directed at a dictionary that one in use inherits from. -/
theorem runScripts_inherited {sources : List Script.Source} {c c' : Compilation}
    (hstep : c.table.InStep) (h : runScripts sources c = .ok () c') :
    (∀ x d, c.table.entity? x = some (.dictionary d) →
      ∃ d', c'.table.entity? x = some (.dictionary d') ∧ d'.inherited = d.inherited ∧
        List.Forall₂ (Field.Overridden fun member type =>
          Directed sources c.table x (.changeType member type)) d.members d'.members) ∧
      c'.table.InheritsBy SameOutlines ∧
      (c'.table.InStep ↔ ∀ y, c.table.IsInherited y → c'.table.fieldsOf y = c.table.fieldsOf y) ∧
      ((∀ y, c.table.IsInherited y →
        ∀ member type, ¬ Directed sources c.table y (.changeType member type)) →
          c'.table.InStep) := by
  have hedited := runScripts_edited c.table sources c (.refl _) () c' h
  have hiff := hedited.inStep_iff hstep
  refine ⟨fun x d hd => hedited.dictionary hd, hedited.inheritsBy hstep, hiff, fun hnone => ?_⟩
  refine hiff.mpr fun y hy => (eq_of_forall₂ ((hedited.fieldsOf y).imp fun d d' hd => ?_)).symm
  rcases hd with rfl | ⟨type, htype, rfl⟩
  · rfl
  · exact absurd htype (hnone y hy d.idl type)

/-- The definitions `dictionary Base { long size; };`, `dictionary Derived : Base {};` and
`interface User { attribute Derived derived; };`. -/
def sized : Document :=
  { name := "sized.idl"
    definitions :=
      [.dictionary { name := "Base", members := [{ name := "size", type := .named "long" }] },
      .dictionary { name := "Derived", inherits := some "Base" },
      .interface
        { name := "User"
          members := [.attribute { name := "derived", type := .named "Derived" }] }] }

/-- A script that overrides the type of the member. -/
def overrideSize : Script.Source :=
  { file := "sized.tr", text := "## Base\n@changetype size = int\n" }

/-- The answer is the number of errors, whether `Derived` is in use, and the overrides in
what it inherits and in the members of its ancestors. -/
def runOverrideSize : CompileM (Nat × Bool × List (Option String) × List (Option String)) := do
  linkDocuments [sized]
  runScripts [overrideSize]
  let c ← get
  return (c.log.errorCount, c.table.isInUse ⟨1⟩,
    (c.table.inheritedAt ⟨1⟩).map Field.typeOverride,
    (c.table.inheritance (c.table.ancestors ⟨1⟩)).map Field.typeOverride)

theorem runScripts_inherited_sized :
    ∃ c c', c.table.InStep ∧ runScripts [overrideSize] c = .ok () c' ∧
      c'.table.InheritsBy SameOutlines ∧
      (c'.table.InStep ↔
        ∀ y, c.table.IsInherited y → c'.table.fieldsOf y = c.table.fieldsOf y) := by
  have hfinishes : (answer? (runOverrideSize { settings := {} })).map id =
      some (0, true, [none], [some "int"]) := by decide +kernel
  obtain ⟨_, _, hruns, rfl⟩ := ok_of_answer? hfinishes
  obtain ⟨⟨⟩, c, hlink, hrest⟩ := bind_ok.mp hruns
  obtain ⟨⟨⟩, c', hrun, _⟩ := bind_ok.mp hrest
  have hstep := linkDocuments_inStep hlink
  obtain ⟨_, hinherits, hiff, _⟩ := runScripts_inherited hstep hrun
  exact ⟨c, c', hstep, hrun, hinherits, hiff⟩

/-- A script without errors can override a member but not the copy of it that another
dictionary has inherited. -/
theorem exists_script_not_inStep :
    ∃ sources c c', c.table.InStep ∧ runScripts sources c = .ok () c' ∧
      c'.log.errorCount = 0 ∧ ¬ c'.table.InStep := by
  have hfinishes : (answer? (runOverrideSize { settings := {} })).map id =
      some (0, true, [none], [some "int"]) := by decide +kernel
  obtain ⟨_, _, hruns, rfl⟩ := ok_of_answer? hfinishes
  obtain ⟨⟨⟩, c, hlink, hrest⟩ := bind_ok.mp hruns
  obtain ⟨⟨⟩, _, hrun, hrest⟩ := bind_ok.mp hrest
  obtain ⟨_, c', hget, hanswer⟩ := bind_ok.mp hrest
  obtain ⟨rfl, rfl⟩ := get_ok.mp hget
  obtain ⟨herrors, hanswer⟩ := Prod.mk.inj (pure_ok.mp hanswer).1
  obtain ⟨hused, hoverrides⟩ := Prod.mk.inj hanswer
  obtain ⟨hinherited, hmembers⟩ := Prod.mk.inj hoverrides
  refine ⟨[overrideSize], c, c', linkDocuments_inStep hlink, hrun, herrors, fun hstep => ?_⟩
  unfold SymbolTable.inheritedAt at hinherited
  split at hinherited
  next d hd =>
    obtain ⟨chain, hchain, heq⟩ := hstep ⟨1⟩ d hused hd
    rw [hchain.ancestors_eq, ← heq] at hmembers
    cases hinherited.symm.trans hmembers
  next => cases hinherited

end IdlModel
