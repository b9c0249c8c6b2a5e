import IdlModel.Proofs.EntityTypes
import IdlModel.Proofs.EventHandlers

/-!
# Visible names

A name is *visible* if one of its characters is not white space.  Properties are checked
when they are set, so the names and the package of an entity stay visible.  The names of
members are not checked.

*Labels.*  A member has a *label*: its declared name, its exported name and whether it is a
constant.  A rename and a patch are writers of labels, and what they write depends on the
label and on the number of labels of the same declared name before it: `Edit.nameFor?`.

*Edits.*  So the label has the last name that the edits write, or else its old one:
`Script.Edit.applyAll_named`.

*Scripts.*  Visible names stay visible if and only if the last name written to each label of
an interface is visible.
-/

namespace IdlModel

open Script (Directed Edit)
open Syntax (Document)

/-- A name has a character that is not white space. -/
def IsVisible (name : String) : Prop := ∃ c ∈ name.toList, Text.isBlank c = false

theorem isVisible_iff {name : String} : IsVisible name ↔ Text.isBlankText name = false := by
  rw [Text.isBlankText, List.all_eq_false]
  simp only [IsVisible, Bool.not_eq_true]

instance (name : String) : Decidable (IsVisible name) := decidable_of_iff _ isVisible_iff.symm

theorem isBlank_of_isDigit {c : Char} (h : c.isDigit = true) : Text.isBlank c = false := by
  obtain ⟨hlow, hhigh⟩ : 48 ≤ c.toNat ∧ c.toNat ≤ 57 := Char.isDigit_iff_toNat.mp h
  have hascii : Text.isAscii c = true := by
    simp only [Text.isAscii, decide_eq_true_eq]
    omega
  have hspace : c ≠ ' ' := by
    rintro rfl
    exact absurd hlow (by decide)
  simp only [Text.isBlank, if_pos hascii, Bool.or_eq_false_iff, beq_eq_false_iff_ne, ne_eq, hspace,
    not_false_eq_true, Bool.and_eq_false_iff, decide_eq_false_iff_not, true_and]
  omega

/-- A number can be seen, so of the members that a rename finds only the first one can become
blank. -/
theorem isVisible_renamed {newName : String} {n : Nat} :
    IsVisible (renamed newName n) ↔ IsVisible newName ∨ n ≠ 0 := by
  unfold renamed
  split
  next h => simp [h]
  next h =>
    refine iff_of_true ?_ (.inr h)
    obtain ⟨c, hc⟩ := List.exists_mem_of_ne_nil _ (Nat.toDigits_ne_nil (n := n + 1) (b := 10))
    refine ⟨c, ?_, isBlank_of_isDigit (Nat.isDigit_of_mem_toDigits (by decide) (by decide) hc)⟩
    rw [String.toList_append, Nat.toString_eq_repr, Nat.toList_repr]
    exact List.mem_append_right _ hc

/-! ## Labels -/

/-- The names of a member. -/
structure Label where
  /-- The name in the definitions. -/
  idl : String
  /-- The exported name. -/
  name : String
  /-- Whether the member is a constant. -/
  constant : Bool := false

namespace Label

/-- The labels with the names that `f` gives to them.  It is told how many labels of the
same declared name are before, where `before` are the declared names. -/
def relabel (f : Nat → Label → String) : (before : List String) → List Label → List Label
  | _, [] => []
  | before, l :: ls =>
      { l with name := f (before.count l.idl) l } :: relabel f (l.idl :: before) ls

theorem relabel_relabel (f g : Nat → Label → String) (before : List String) (ls : List Label) :
    relabel g before (relabel f before ls) =
      relabel (fun n l => g n { l with name := f n l }) before ls := by
  induction ls generalizing before with
  | nil => rfl
  | cons l ls ih => exact congrArg _ (ih _)

theorem relabel_name (before : List String) (ls : List Label) :
    relabel (fun _ l => l.name) before ls = ls := by
  induction ls generalizing before with
  | nil => rfl
  | cons l ls ih => exact congrArg _ (ih _)

/-- Names that do not depend on the labels before. -/
theorem relabel_eq_map (f : Label → String) (before : List String) (ls : List Label) :
    relabel (fun _ => f) before ls = ls.map fun l => { l with name := f l } := by
  induction ls generalizing before with
  | nil => rfl
  | cons l ls ih => exact congrArg _ (ih _)

theorem mem_relabel {f : Nat → Label → String} {before : List String} {ls : List Label}
    {l' : Label} (h : l' ∈ relabel f before ls) :
    ∃ l ∈ ls, ∃ n, l' = { l with name := f n l } := by
  induction ls generalizing before with
  | nil => cases h
  | cons l ls ih =>
    rcases List.mem_cons.mp h with rfl | h
    · exact ⟨l, List.mem_cons_self, _, rfl⟩
    · obtain ⟨l₁, hl₁, n, rfl⟩ := ih h
      exact ⟨l₁, List.mem_cons_of_mem _ hl₁, n, rfl⟩

/-- Rebuild the name of a label. -/
def mapNameM {m : Type → Type} [Monad m] (f : (idl name : String) → m String) (l : Label) :
    m Label := do
  return { l with name := ← f l.idl l.name }

/-- A rename counts the labels that it has found. -/
theorem mapM_renameOne (member newName : String) (ls : List Label) (before : List String) :
    ((ls.mapM (mapNameM (renameOne member newName))).run (before.count member)).1 =
      relabel (fun n l => if l.idl = member then renamed newName n else l.name) before ls := by
  induction ls generalizing before with
  | nil => rfl
  | cons l ls ih =>
    have hfirst := put_renameOne_run member newName Label.idl Label.name
      (fun (l : Label) name => { l with name }) l (before.count member)
    have hrest := ih (l.idl :: before)
    rw [mapM_cons_run, relabel, ← hrest]
    unfold mapNameM at hfirst ⊢
    rw [hfirst]
    by_cases hmember : l.idl = member
    · subst hmember
      simp only [if_true, List.count_cons_self]
    · simp only [if_neg hmember, List.count_cons_of_ne hmember]

end Label

/-- The label of a constant. -/
def Constant.label (d : Constant) : Label := { idl := d.idl, name := d.name, constant := true }

/-- The label of an attribute. -/
def Attribute.label (d : Attribute) : Label := { idl := d.idl, name := d.name }

/-- The label of a method. -/
def Method.label (d : Method) : Label := { idl := d.idl, name := d.name }

/-- The labels of members, in the order in which a rename counts them. -/
def Members.labels (d : Members) : List Label :=
  d.constants.map Constant.label ++ d.attributes.map Attribute.label ++
    d.staticAttributes.map Attribute.label ++ d.methods.map Method.label ++
    d.staticMethods.map Method.label

theorem Members.mem_constants_of_label {d : Members} {l : Label} (h : l ∈ d.labels)
    (hconstant : l.constant = true) : ∃ k ∈ d.constants, k.label = l := by
  simp only [labels, List.mem_append, List.mem_map] at h
  rcases h with (((h | ⟨x, -, rfl⟩) | ⟨x, -, rfl⟩) | ⟨x, -, rfl⟩) | ⟨x, -, rfl⟩
  · exact h
  all_goals cases hconstant

theorem Members.labels_mapNamesM {m : Type → Type} [Monad m] [LawfulMonad m]
    (f : String → String → m String) (d : Members) :
    Members.labels <$> d.mapNamesM f = d.labels.mapM (Label.mapNameM f) := by
  have hconstant : ∀ xs : List Constant,
      List.map Constant.label <$> xs.mapM (fun x => do return { x with name := ← f x.idl x.name }) =
        (xs.map Constant.label).mapM (Label.mapNameM f) :=
    map_mapM fun x => by simp [Label.mapNameM, Constant.label]
  have hattribute : ∀ xs : List Attribute,
      List.map Attribute.label <$>
          xs.mapM (fun x => do return { x with name := ← f x.idl x.name }) =
        (xs.map Attribute.label).mapM (Label.mapNameM f) :=
    map_mapM fun x => by simp [Label.mapNameM, Attribute.label]
  have hmethod : ∀ xs : List Method,
      List.map Method.label <$> xs.mapM (fun x => do return { x with name := ← f x.idl x.name }) =
        (xs.map Method.label).mapM (Label.mapNameM f) :=
    map_mapM fun x => by simp [Label.mapNameM, Method.label]
  simp only [labels, List.mapM_append, ← hconstant, ← hattribute, ← hmethod]
  simp [mapNamesM, labels]

theorem Members.labels_rename (d : Members) (member newName : String) :
    (d.rename member newName).1.labels =
      Label.relabel (fun n l => if l.idl = member then renamed newName n else l.name) []
        d.labels := by
  rw [← Label.mapM_renameOne, ← Members.labels_mapNamesM]
  rfl

/-! ## Names behind edits -/

/-- The name that an edit writes to a label with `n` labels of its declared name before it. -/
def Script.Edit.nameFor? (n : Nat) (l : Label) : Edit → Option String
  | .rename member newName => if l.idl = member then some (renamed newName n) else none
  | .patch => if l.constant then some (constantName l.idl) else none
  | _ => none

/-- The name of a label behind some edits.  The last name that they write counts. -/
def Label.nameAfter (edits : List Edit) (n : Nat) (l : Label) : String :=
  ((edits.filterMap (Edit.nameFor? n l)).getLast?).getD l.name

namespace Label

/-- Edits behind a first one. -/
theorem nameAfter_cons (edit : Edit) (edits : List Edit) (n : Nat) (l : Label) :
    nameAfter edits n { l with name := l.nameAfter [edit] n } = l.nameAfter (edit :: edits) n := by
  have hrest : ∀ name, edits.filterMap (Edit.nameFor? n { l with name }) =
      edits.filterMap (Edit.nameFor? n l) := fun name =>
    List.filterMap_congr fun edit _ => by cases edit <;> rfl
  unfold nameAfter
  rw [hrest]
  cases hname : edit.nameFor? n l with
  | none => simp [hname]
  | some name => simp [hname, List.getLast?_cons]

/-- The name is the old one or that of an edit. -/
theorem nameAfter_cases (edits : List Edit) (n : Nat) (l : Label) :
    l.nameAfter edits n = l.name ∨
      ∃ edit ∈ edits, edit.nameFor? n l = some (l.nameAfter edits n) := by
  unfold nameAfter
  cases hlast : (edits.filterMap (Edit.nameFor? n l)).getLast? with
  | none => exact .inl rfl
  | some name => exact .inr (List.mem_filterMap.mp (List.mem_of_getLast? hlast))

end Label

namespace Script.Edit

variable {t : SymbolTable} {d : Interface} {e e' : Entity} {edit : Edit}

/-- A property gets a visible value only. -/
theorem setProperty_visible {name value : String} (h : e.setProperty name value = .ok e') :
    ∃ p, IsVisible value ∧ e' = e.withProperty value p := by
  obtain ⟨p, hp⟩ := Entity.findProperty_bind_ok h
  split at hp
  next => cases hp
  next hblank =>
    cases hp
    exact ⟨p, isVisible_iff.mpr (Bool.not_eq_true _ ▸ hblank), rfl⟩

/-- An edit sets a property to a visible value, or the identity stays. -/
theorem apply_identity (h : edit.apply t e = .ok e') :
    (∃ value p, IsVisible value ∧ e' = e.withProperty value p) ∨ e'.identity = e.identity := by
  cases edit with
  | setProperty name value =>
      obtain ⟨p, hvisible, rfl⟩ := setProperty_visible h
      exact .inl ⟨value, p, hvisible, rfl⟩
  | replace property old new =>
      obtain ⟨q, hq⟩ := Entity.findProperty_bind_ok h
      obtain ⟨p, hvisible, rfl⟩ := setProperty_visible hq
      exact .inl ⟨_, p, hvisible, rfl⟩
  | rename member newName =>
      obtain ⟨d, m, rfl, -, rfl⟩ := Entity.renameMembers_ok h
      exact .inr rfl
  | changeType member type =>
      obtain ⟨-, rfl⟩ := Entity.changeType_ok h
      cases e <;> exact .inr rfl
  | patch =>
      obtain ⟨d, m, rfl, -, rfl⟩ := Entity.patch_ok h
      exact .inr rfl
  | event name type =>
      obtain ⟨d, v, rfl, -, rfl⟩ := Entity.addEvent_ok h
      exact .inr rfl

/-- An edit that writes no label. -/
theorem nameAfter_of_forall_none (h : ∀ n l, edit.nameFor? n l = none) :
    Label.nameAfter [edit] = fun _ l => l.name := by
  funext n l
  simp [Label.nameAfter, h]

theorem labels_setProperty {name value : String}
    (h : Entity.setProperty (.interface d) name value = .ok e') :
    ∃ d', e' = .interface d' ∧ d'.members = d.members ∧ d'.constructor = d.constructor := by
  obtain ⟨p, rfl⟩ := Entity.setProperty_ok h
  cases p <;> exact ⟨_, rfl, rfl, rfl⟩

/-- An edit gives the members of an interface the names that it writes. -/
theorem apply_named (h : edit.apply t (.interface d) = .ok e') :
    ∃ d', e' = .interface d' ∧ d'.constructor = d.constructor ∧
      d'.members.labels = Label.relabel (Label.nameAfter [edit]) [] d.members.labels := by
  have hsame : (∀ n l, edit.nameFor? n l = none) →
      Label.relabel (Label.nameAfter [edit]) [] d.members.labels = d.members.labels := by
    intro hnone
    rw [nameAfter_of_forall_none hnone, Label.relabel_name]
  cases edit with
  | setProperty name value =>
      obtain ⟨d', rfl, hmembers, hconstructor⟩ := labels_setProperty h
      exact ⟨d', rfl, hconstructor, by rw [hsame fun _ _ => rfl, hmembers]⟩
  | replace property old new =>
      obtain ⟨p, hp⟩ := Entity.findProperty_bind_ok h
      obtain ⟨d', rfl, hmembers, hconstructor⟩ := labels_setProperty hp
      exact ⟨d', rfl, hconstructor, by rw [hsame fun _ _ => rfl, hmembers]⟩
  | rename member newName =>
      unfold apply Entity.renameMembers at h
      dsimp only at h
      split at h
      next => cases h
      next members _ _ hrename =>
        cases h
        refine ⟨_, rfl, rfl, ?_⟩
        have hlabels := d.members.labels_rename member newName
        rw [hrename] at hlabels
        rw [hlabels]
        congr 1
        funext n l
        by_cases hmember : l.idl = member <;> simp [Label.nameAfter, nameFor?, hmember]
  | changeType member type =>
      obtain ⟨-, rfl⟩ := Entity.changeType_ok h
      refine ⟨_, rfl, rfl, ?_⟩
      have hattribute := map_map_of_keeps (v := Attribute.label)
        (f := fun x => if x.idl = member then { x with typeOverride := some type } else x)
        fun x => by split <;> rfl
      have hmethod := map_map_of_keeps (v := Method.label)
        (f := fun x => if x.idl = member then { x with typeOverride := some type } else x)
        fun x => by split <;> rfl
      rw [hsame fun _ _ => rfl]
      simp only [Members.labels, hattribute, hmethod]
  | patch =>
      cases h
      refine ⟨_, rfl, rfl, ?_⟩
      have hname : Label.nameAfter [patch] =
          fun _ l => if l.constant then constantName l.idl else l.name := by
        funext n l
        by_cases hconstant : l.constant = true <;> simp [Label.nameAfter, nameFor?, hconstant]
      have hattribute : ∀ x : Attribute, x.label.constant = false := fun _ => rfl
      have hmethod : ∀ x : Method, x.label.constant = false := fun _ => rfl
      rw [hname, Label.relabel_eq_map]
      simp [Members.labels, Function.comp_def, Constant.label, hattribute, hmethod]
      rfl
  | event name type =>
      have hadd : Entity.addEvent t (.interface d) name type = .ok e' := h
      obtain ⟨d', v, hd', -, rfl⟩ := Entity.addEvent_ok hadd
      obtain rfl := Entity.interface.inj hd'
      exact ⟨_, rfl, rfl, (hsame fun _ _ => rfl).symm⟩

/-! ## Edits one after the other -/

/-- Edits give the members of an interface the last names that they write. -/
theorem applyAll_named {edits : List Edit} (h : applyAll t edits (.interface d) = .ok e') :
    ∃ d', e' = .interface d' ∧ d'.constructor = d.constructor ∧
      d'.members.labels = Label.relabel (Label.nameAfter edits) [] d.members.labels := by
  induction edits generalizing d with
  | nil =>
    cases h
    exact ⟨d, rfl, rfl, (Label.relabel_name [] _).symm⟩
  | cons edit edits ih =>
    cases happly : edit.apply t (.interface d) with
    | ok e₁ =>
        rw [applyAll_cons_ok happly] at h
        obtain ⟨d₁, rfl, hconstructor₁, hlabels₁⟩ := apply_named happly
        obtain ⟨d', rfl, hconstructor, hlabels⟩ := ih h
        refine ⟨d', rfl, hconstructor.trans hconstructor₁, ?_⟩
        rw [hlabels, hlabels₁, Label.relabel_relabel]
        simp only [Label.nameAfter_cons]
    | error issue =>
        rw [applyAll_cons_error happly] at h
        cases h

end Script.Edit

/-! ## Entities and tables -/

namespace Interface

/-- Behind some edits every label has a visible name. -/
def StaysNamed (d : Interface) (edits : List Edit) : Prop :=
  ∀ l ∈ Label.relabel (Label.nameAfter edits) [] d.members.labels, IsVisible l.name

/-- Names stay visible if none of the edits writes a blank one. -/
theorem staysNamed_of_edits {d : Interface} {edits : List Edit}
    (hbefore : ∀ l ∈ d.members.labels, IsVisible l.name)
    (hrename : ∀ member newName, .rename member newName ∈ edits → IsVisible newName)
    (hpatch : .patch ∈ edits → ∀ l ∈ d.members.labels, l.constant = true →
      IsVisible (constantName l.idl)) : d.StaysNamed edits := by
  intro l' hl'
  obtain ⟨l, hl, n, rfl⟩ := Label.mem_relabel hl'
  rcases l.nameAfter_cases edits n with hname | ⟨edit, hedit, hname⟩
  · rw [hname]
    exact hbefore l hl
  · unfold Edit.nameFor? at hname
    split at hname
    next member newName =>
      split at hname
      next =>
        rw [← Option.some.inj hname]
        exact isVisible_renamed.mpr (.inl (hrename member newName hedit))
      next => cases hname
    next =>
      split at hname
      next hconstant =>
        rw [← Option.some.inj hname]
        exact hpatch hedit l hl hconstant
      next => cases hname
    next => cases hname

end Interface

/-- The names and the package of a declaration are visible. -/
def Identity.Visible (d : Identity) : Prop :=
  IsVisible d.name ∧ IsVisible d.internal ∧ IsVisible d.package

/-- The exported names of the members of an interface, with that of its constructor. -/
def Interface.memberNames (d : Interface) : List String :=
  d.members.labels.map (·.name) ++ d.constructor.toList.map (·.name)

namespace Entity

/-- The exported names of the constants, attributes and methods of an entity. -/
def memberNames : Entity → List String
  | .interface d => d.memberNames
  | _ => []

/-- All names of an entity are visible. -/
def NamesVisible (e : Entity) : Prop :=
  e.identity.Visible ∧ ∀ name ∈ e.memberNames, IsVisible name

instance (e : Entity) : Decidable e.NamesVisible :=
  inferInstanceAs (Decidable ((IsVisible _ ∧ IsVisible _ ∧ IsVisible _) ∧ _))

variable {t : SymbolTable} {e e' : Entity} {edits : List Edit}

/-- The identity of an entity stays visible. -/
theorem EditedBy.identity_visible {D : Edit → Prop} (hedited : e.EditedBy t D e')
    (h : e.identity.Visible) : e'.identity.Visible := by
  induction hedited with
  | refl => exact h
  | @tail e₁ e₂ _ hlast ih =>
      obtain ⟨hname, hinternal, hpackage⟩ := ih
      obtain ⟨edit, -, happly⟩ := hlast
      rcases Edit.apply_identity happly with ⟨value, p, hvalue, rfl⟩ | hidentity
      · cases p with
        | name => cases e₁ <;> exact ⟨hvalue, hinternal, hpackage⟩
        | package => cases e₁ <;> exact ⟨hname, hinternal, hvalue⟩
        | internal => cases e₁ <;> exact ⟨hname, hvalue, hpackage⟩
        | namePrefix | nameSuffix => cases e₁ <;> exact ⟨hname, hinternal, hpackage⟩
      · rw [hidentity]
        exact ⟨hname, hinternal, hpackage⟩

/-- Visible names stay visible if and only if the edits write visible names last. -/
theorem namesVisible_applyAll (h : e.NamesVisible) (hall : Edit.applyAll t edits e = .ok e') :
    e'.NamesVisible ↔ ∀ d, e = .interface d → d.StaysNamed edits := by
  have hedited : e.EditedBy t (fun _ => True) e' :=
    Edit.editedBy_of_applyAll (fun _ _ => trivial) hall
  have hidentity := hedited.identity_visible h.1
  cases e with
  | interface d =>
      obtain ⟨d', rfl, hconstructor, hlabels⟩ := Edit.applyAll_named hall
      have hnames : d'.memberNames =
          (Label.relabel (Label.nameAfter edits) [] d.members.labels).map (·.name) ++
            d.constructor.toList.map (·.name) := by
        rw [Interface.memberNames, hlabels, hconstructor]
      constructor
      · rintro hafter _ ⟨⟩ l hl
        refine hafter.2 l.name ?_
        rw [memberNames, hnames]
        exact List.mem_append_left _ (List.mem_map_of_mem hl)
      · refine fun hstays => ⟨hidentity, fun name hname => ?_⟩
        rw [memberNames, hnames] at hname
        rcases List.mem_append.mp hname with hname | hname
        · obtain ⟨l, hl, rfl⟩ := List.mem_map.mp hname
          exact hstays d rfl l hl
        · exact h.2 name (List.mem_append_right _ hname)
  | dictionary | enumeration | callback =>
      refine iff_of_true ⟨hidentity, ?_⟩ (fun _ heq => nomatch heq)
      cases e' with
      | interface => cases hedited.renamed.kind
      | _ => exact fun _ hname => nomatch hname

end Entity

/-- The names of all entities are visible. -/
def SymbolTable.NamesVisible (t : SymbolTable) : Prop :=
  ∀ x e, t.entity? x = some e → e.NamesVisible

theorem SymbolTable.namesVisible_of_slots {t : SymbolTable}
    (h : ∀ slot ∈ t.slots.toList, slot.entity.NamesVisible) : t.NamesVisible := by
  intro x e he
  obtain ⟨slot, hslot, rfl⟩ := Option.map_eq_some_iff.mp he
  exact h slot (Array.mem_toList_iff.mpr (Array.mem_of_getElem? hslot))

/-- Visible names stay visible if and only if the edits at each interface write visible names
last. -/
theorem SymbolTable.Edited.namesVisible_iff {t t' : SymbolTable} {D : EntityId → Edit → Prop}
    (h : t.Edited D t') (hvisible : t.NamesVisible) {edits : EntityId → List Edit}
    (hedits : ∀ x e, t.entity? x = some e →
      ∃ e', t'.entity? x = some e' ∧ Edit.applyAll t (edits x) e = .ok e') :
    t'.NamesVisible ↔ ∀ x d, t.entity? x = some (.interface d) → d.StaysNamed (edits x) := by
  constructor
  · intro hafter x d hd
    obtain ⟨e', he', hall⟩ := hedits x _ hd
    exact (Entity.namesVisible_applyAll (hvisible x _ hd) hall).mp (hafter x e' he') d rfl
  · intro hstays x e' he'
    obtain ⟨e, he, -⟩ := h.entity_before he'
    obtain ⟨_, he₁, hall⟩ := hedits x e he
    obtain rfl := Option.some.inj (he'.symm.trans he₁)
    refine (Entity.namesVisible_applyAll (hvisible x e he) hall).mpr ?_
    rintro d rfl
    exact hstays x d he

/-! ## Scripts -/

/-- Scripts change each interface by edits that they direct at it, and the names and packages
of entities stay visible.  All names that were visible still are if and only if the last name
that the edits write to each member is visible.  That holds if every rename directed at an
interface has a visible new name, and every constant of an interface that a patch is directed
at has a visible usual name. -/
theorem runScripts_namesVisible_iff {c : Compilation} (hvisible : c.table.NamesVisible)
    (sources : List Script.Source) :
    let c' := endState (runScripts sources c)
    (∀ x e', c'.table.entity? x = some e' → e'.identity.Visible) ∧
      (∃ edits : EntityId → List Edit,
        (∀ x, ∀ edit ∈ edits x, Directed sources c.table x edit) ∧
          (∀ x e, c.table.entity? x = some e →
            ∃ e', c'.table.entity? x = some e' ∧ Edit.applyAll c.table (edits x) e = .ok e') ∧
          (c'.table.NamesVisible ↔
            ∀ x d, c.table.entity? x = some (.interface d) → d.StaysNamed (edits x))) ∧
      ((∀ x d, c.table.entity? x = some (.interface d) →
        (∀ member newName, Directed sources c.table x (.rename member newName) →
            IsVisible newName) ∧
          (Directed sources c.table x .patch → ∀ k ∈ d.members.constants,
            IsVisible (constantName k.idl))) →
        c'.table.NamesVisible) := by
  intro c'
  have hedited : c.table.Edited (Directed sources c.table) c'.table :=
    runScripts_editsOnly c.table sources c (.refl _)
  obtain ⟨edits, hD, hedits⟩ := hedited.exists_edits
  have hiff := hedited.namesVisible_iff hvisible hedits
  refine ⟨fun x e' he' => ?_, ⟨edits, hD, hedits, hiff⟩, fun hnone => hiff.mpr fun x d hd => ?_⟩
  · obtain ⟨e, he, hbefore⟩ := hedited.entity_before he'
    exact hbefore.identity_visible (hvisible x e he).1
  · obtain ⟨hrename, hpatch⟩ := hnone x d hd
    have hbefore : ∀ l ∈ d.members.labels, IsVisible l.name := fun l hl =>
      (hvisible x _ hd).2 l.name (List.mem_append_left _ (List.mem_map_of_mem hl))
    refine Interface.staysNamed_of_edits hbefore
      (fun member newName hmem => hrename member newName (hD x _ hmem)) ?_
    intro hmem l hl hconstant
    obtain ⟨k, hk, rfl⟩ := d.members.mem_constants_of_label hl hconstant
    exact hpatch (hD x _ hmem) k hk

/-- A script that gives an attribute the empty name. -/
def blankRename : Script.Source :=
  { file := "node.tr", text := "## Node\nonclick = \"\"\n" }

/-- The answer says whether all names were visible before the script, and gives the number of
errors and the names of the members of `Node` after it. -/
def runBlankRename : CompileM (Bool × Nat × Option (List String)) := do
  linkDocuments [clickable]
  let before ← get
  runScripts [blankRename]
  let c ← get
  return (before.table.slots.toList.all fun slot => slot.entity.NamesVisible, c.log.errorCount,
    (c.table.interface? ⟨1⟩).map Interface.memberNames)

theorem runBlankRename_answer :
    (answer? (runBlankRename { settings := {} })).map id = some (true, 0, some [""]) := by
  decide +kernel

theorem runBlankRename_spec :
    ∃ c c' d, c.table.NamesVisible ∧ runScripts [blankRename] c = .ok () c' ∧
      c'.log.errorCount = 0 ∧ c'.table.entity? ⟨1⟩ = some (.interface d) ∧
        d.memberNames = [""] := by
  obtain ⟨_, _, hruns, hanswer⟩ := ok_of_answer? runBlankRename_answer
  obtain ⟨⟨⟩, c, -, hlinked⟩ := bind_ok.mp hruns
  obtain ⟨before, c₁, hget, hedit⟩ := bind_ok.mp hlinked
  obtain ⟨rfl, rfl⟩ := get_ok.mp hget
  obtain ⟨⟨⟩, c', hrun, hread⟩ := bind_ok.mp hedit
  obtain ⟨_, c₂, hget', hlast⟩ := bind_ok.mp hread
  obtain ⟨rfl, rfl⟩ := get_ok.mp hget'
  obtain ⟨rfl, -⟩ := pure_ok.mp hlast
  simp only [id, Prod.mk.injEq] at hanswer
  obtain ⟨hslots, herrors, hnode⟩ := hanswer
  obtain ⟨d, hd, hnames⟩ := Option.map_eq_some_iff.mp hnode
  refine ⟨_, _, d, SymbolTable.namesVisible_of_slots fun slot hslot => ?_, hrun, herrors,
    SymbolTable.interface?_eq_some.mp hd, hnames⟩
  exact of_decide_eq_true (List.all_eq_true.mp hslots slot hslot)

theorem runScripts_namesVisible_iff_clickable :
    ∃ c c' : Compilation, c.table.NamesVisible ∧ runScripts [blankRename] c = .ok () c' ∧
      ∃ edits : EntityId → List Edit,
        (∀ x, ∀ edit ∈ edits x, Directed [blankRename] c.table x edit) ∧
          (c'.table.NamesVisible ↔
            ∀ x d, c.table.entity? x = some (.interface d) → d.StaysNamed (edits x)) := by
  obtain ⟨c, c', -, hbefore, hrun, -⟩ := runBlankRename_spec
  obtain ⟨-, ⟨edits, hD, -, hiff⟩, -⟩ := runScripts_namesVisible_iff hbefore [blankRename]
  rw [hrun] at hiff
  exact ⟨c, c', hbefore, hrun, edits, hD, hiff⟩

/-- A script without errors can give a member a name that cannot be seen. -/
theorem exists_blank_name :
    ∃ sources c c', c.table.NamesVisible ∧ runScripts sources c = .ok () c' ∧
      c'.log.errorCount = 0 ∧ ¬ c'.table.NamesVisible := by
  obtain ⟨c, c', d, hbefore, hrun, herrors, hd, hnames⟩ := runBlankRename_spec
  refine ⟨_, c, c', hbefore, hrun, herrors, fun hafter => ?_⟩
  have hvisible : ∀ name ∈ d.memberNames, IsVisible name := (hafter ⟨1⟩ _ hd).2
  rw [hnames] at hvisible
  exact absurd (hvisible "" (List.mem_singleton_self "")) (by decide)

end IdlModel
