import IdlModel.Proofs.Declaring
import IdlModel.Proofs.Growth

/-!
# Waiting fragments

What the first stage leaves behind, told from the definitions alone.

*Fragments.*  They wait in the order of the definitions that put them aside, over all
documents.  This holds with or without errors.

*Declarations.*  An entity or a mixin of the table is what some definition declares, for the
first of a name keeps it.  Without errors every mixin is declared, in the same order.

*Callback interfaces.*  None is declared that breaks a rule of callback interfaces, and
without errors none breaks one.
-/

namespace IdlModel

open Syntax

/-! ## What a definition says -/

/-- A callback interface that breaks a rule. -/
def Interface.isRefused (d : Interface) : Bool := d.callback && (callbackViolation? d).isSome

namespace Interface

variable {d : Interface}

theorem isRefused_of_issue {issue : Issue}
    (h : (if d.callback then callbackViolation? d else none) = some issue) :
    d.isRefused = true ∧ issue.severity = .error := by
  split at h
  next hcallback =>
    refine ⟨by rw [isRefused, hcallback, h]; rfl, ?_⟩
    unfold callbackViolation? at h
    dsimp only at h
    repeat' split at h
    all_goals cases h <;> rfl
  next => cases h

theorem not_isRefused (h : (if d.callback then callbackViolation? d else none) = none) :
    d.isRefused = false := by
  split at h
  next => rw [isRefused, h, Option.isSome_none, Bool.and_false]
  next hcallback => rw [isRefused, Bool.eq_false_iff.mpr hcallback, Bool.false_and]

end Interface

/-- The mixin of a declaration in a package. -/
def mixinOf (file package : String) (d : MixinDecl) : Mixin :=
  { identity := .ofIdl d.name package ⟨file, d.line.toNat⟩
    members := (Body.ofMembers file d.name d.members).members }

/-- The dictionary of a declaration in a package. -/
def dictionaryOf (file package : String) (d : DictionaryDecl) : Dictionary :=
  { identity := .ofIdl d.name package ⟨file, d.line.toNat⟩
    members := d.members.map (Compilation.fieldOf file)
    parent := d.inherits.map .unlinked }

section Located

/-- The package of a file under some settings. -/
def Settings.packageOf (settings : Settings) (file : String) : String :=
  ({ settings } : Compilation).packageOf file

variable (settings : Settings)

/-- The fragment of an interface that a definition in a file puts aside. -/
def interfaceFragment? : String × Definition → Option Interface
  | (file, .interface d) =>
      let decl := (Compilation.interfaceOf file (settings.packageOf file) d).1
      if d.isPartial && !decl.isRefused then some decl else none
  | _ => none

/-- The fragment of a dictionary that a definition in a file puts aside. -/
def dictionaryFragment? : String × Definition → Option Dictionary
  | (file, .dictionary d) =>
      if d.isPartial then some (dictionaryOf file (settings.packageOf file) d) else none
  | _ => none

/-- The fragment of a mixin that a definition in a file puts aside. -/
def mixinFragment? : String × Definition → Option Mixin
  | (file, .mixin d) => if d.isPartial then some (mixinOf file (settings.packageOf file) d) else none
  | _ => none

/-- The mixin that a definition in a file declares. -/
def declaredMixin? : String × Definition → Option Mixin
  | (file, .mixin d) => if d.isPartial then none else some (mixinOf file (settings.packageOf file) d)
  | _ => none

/-- The entity that a definition in a file declares, if its name is free. -/
def declaredEntity? : String × Definition → Option Entity
  | (file, .interface d) =>
      let decl := (Compilation.interfaceOf file (settings.packageOf file) d).1
      if d.isPartial || decl.isRefused then none else some (.interface decl)
  | (file, .dictionary d) =>
      if d.isPartial then none
      else some (.dictionary (dictionaryOf file (settings.packageOf file) d))
  | (file, .enumeration d) => some (.enumeration
      { identity := .ofIdl d.name (settings.packageOf file) ⟨file, d.line.toNat⟩
        values := (splitRepeated [] d.values).1 })
  | (file, .callback d) => some (.callback
      { identity := .ofIdl d.name (settings.packageOf file) ⟨file, d.line.toNat⟩
        result := .ofExpr d.returnType
        params := parametersOf d.args })
  | _ => none

/-- The includes statement that a definition in a file is. -/
def inclusion? : String × Definition → Option Inclusion
  | (file, .includes d) =>
      some { target := d.target, mixin := d.mixin, source := ⟨file, d.line.toNat⟩ }
  | _ => none

/-- A definition in a file is no callback interface that breaks a rule. -/
def IsAccepted : String × Definition → Prop
  | (file, .interface d) =>
      (Compilation.interfaceOf file (settings.packageOf file) d).1.isRefused = false
  | _ => True

/-- What waits and what is declared behind some definitions. -/
structure Extracted (ds : List (String × Definition)) (c : Compilation) : Prop where
  configured : c.settings = settings
  interfaces : c.fragments.interfaces = ds.filterMap (interfaceFragment? settings)
  dictionaries : c.fragments.dictionaries = ds.filterMap (dictionaryFragment? settings)
  mixins : c.fragments.mixins = ds.filterMap (mixinFragment? settings)
  inclusions : c.fragments.inclusions = ds.filterMap inclusion?
  declared : c.Clean → c.table.mixins.toList = ds.filterMap (declaredMixin? settings)
  accepted : c.Clean → ∀ a ∈ ds, IsAccepted settings a
  entities : ∀ x e, c.table.entity? x = some e → ∃ a ∈ ds, declaredEntity? settings a = some e
  mixed : ∀ m ∈ c.table.mixins, ∃ a ∈ ds, declaredMixin? settings a = some m

end Located

/-! ## Steps -/

namespace Extracted

variable {settings : Settings} {ds : List (String × Definition)} {c : Compilation}

theorem fresh (settings : Settings) : Extracted settings [] { settings } where
  configured := rfl
  interfaces := rfl
  dictionaries := rfl
  mixins := rfl
  inclusions := rfl
  declared _ := rfl
  accepted _ _ ha := nomatch ha
  entities x e he := by simp [SymbolTable.entity?] at he
  mixed m hm := by simp at hm

theorem report (h : Extracted settings ds c) (issue : Issue) (at_ : Location) :
    Extracted settings ds (c.report issue at_) where
  configured := h.configured
  interfaces := h.interfaces
  dictionaries := h.dictionaries
  mixins := h.mixins
  inclusions := h.inclusions
  declared hclean := h.declared (hclean.of_le (c.errors_le_report issue at_))
  accepted hclean := h.accepted (hclean.of_le (c.errors_le_report issue at_))
  entities := h.entities
  mixed := h.mixed

theorem reportAll (h : Extracted settings ds c) (issues : List LocatedIssue) :
    Extracted settings ds (c.reportAll issues) := by
  unfold Compilation.reportAll
  induction issues generalizing c with
  | nil => exact h
  | cons issue issues ih => exact ih (h.report issue.1 issue.2)

/-- What some definitions declare is declared with one more. -/
theorem exists_append {γ : Type} {f : String × Definition → Option γ} {v : γ}
    (h : ∃ a ∈ ds, f a = some v) (a : String × Definition) : ∃ b ∈ ds ++ [a], f b = some v :=
  h.imp fun _ hb => ⟨List.mem_append_left _ hb.1, hb.2⟩

/-- A definition puts aside what it says, and it declares no mixin. -/
theorem put (h : Extracted settings ds c) {a : String × Definition} {f : Fragments}
    (hinterfaces :
      f.interfaces = c.fragments.interfaces ++ [a].filterMap (interfaceFragment? settings))
    (hdictionaries :
      f.dictionaries = c.fragments.dictionaries ++ [a].filterMap (dictionaryFragment? settings))
    (hmixins : f.mixins = c.fragments.mixins ++ [a].filterMap (mixinFragment? settings))
    (hinclusions : f.inclusions = c.fragments.inclusions ++ [a].filterMap inclusion?)
    (hclean : c.Clean → declaredMixin? settings a = none ∧ IsAccepted settings a) :
    Extracted settings (ds ++ [a]) { c with fragments := f } where
  configured := h.configured
  interfaces := by rw [List.filterMap_append, ← h.interfaces, hinterfaces]
  dictionaries := by rw [List.filterMap_append, ← h.dictionaries, hdictionaries]
  mixins := by rw [List.filterMap_append, ← h.mixins, hmixins]
  inclusions := by rw [List.filterMap_append, ← h.inclusions, hinclusions]
  declared hc := by simp [h.declared hc, (hclean hc).1]
  accepted hc := List.forall_mem_append.mpr
    ⟨h.accepted hc, List.forall_mem_singleton.mpr (hclean hc).2⟩
  entities x e he := exists_append (h.entities x e he) a
  mixed m hm := exists_append (h.mixed m hm) a

/-- A definition that says nothing of this. -/
theorem skip (h : Extracted settings ds c) {a : String × Definition}
    (hinterface : interfaceFragment? settings a = none)
    (hdictionary : dictionaryFragment? settings a = none)
    (hmixin : mixinFragment? settings a = none) (hinclusion : inclusion? a = none)
    (hclean : c.Clean → declaredMixin? settings a = none ∧ IsAccepted settings a) :
    Extracted settings (ds ++ [a]) c :=
  h.put (by simp [hinterface]) (by simp [hdictionary]) (by simp [hmixin]) (by simp [hinclusion])
    hclean

/-- Something other than a mixin is declared, if its name is free. -/
theorem declareOther (h : Extracted settings ds c) (name : String) (at_ : Location)
    {attempt : Except Location SymbolTable}
    (hmixins : ∀ t, attempt = .ok t → t.mixins = c.table.mixins)
    (hentities : ∀ t, attempt = .ok t → ∀ x e, t.entity? x = some e →
      c.table.entity? x = some e ∨ ∃ a ∈ ds, declaredEntity? settings a = some e) :
    Extracted settings ds (c.declared name at_ attempt) := by
  unfold Compilation.declared
  split
  next table =>
    have hsame := hmixins table rfl
    exact
      { configured := h.configured
        interfaces := h.interfaces
        dictionaries := h.dictionaries
        mixins := h.mixins
        inclusions := h.inclusions
        declared := fun hclean => (congrArg Array.toList hsame).trans (h.declared hclean)
        accepted := h.accepted
        entities := fun x e he => (hentities table rfl x e he).elim (h.entities x e) id
        mixed := fun m hm => h.mixed m (hsame ▸ hm) }
  next => exact h.report _ _

/-- The entity of a definition is declared, if its name is free. -/
theorem declareEntity (h : Extracted settings ds c) {a : String × Definition} {e : Entity}
    (he : declaredEntity? settings a = some e) (hinterface : interfaceFragment? settings a = none)
    (hdictionary : dictionaryFragment? settings a = none)
    (hmixin : mixinFragment? settings a = none) (hinclusion : inclusion? a = none)
    (hclean : declaredMixin? settings a = none ∧ IsAccepted settings a) :
    Extracted settings (ds ++ [a]) (c.declareEntity e) := by
  have hskipped := h.skip hinterface hdictionary hmixin hinclusion fun _ => hclean
  have hinsert : ∀ t, c.table.insert e = .ok t → t.mixins = c.table.mixins ∧
      ∀ x, t.entity? x = (c.table.push e).entity? x := by
    intro t ht
    unfold SymbolTable.insert at ht
    split at ht
    next => cases ht
    next =>
      cases ht
      exact ⟨rfl, fun _ => rfl⟩
  refine hskipped.declareOther _ _ (fun t ht => (hinsert t ht).1) fun t ht x e' he' => ?_
  rw [(hinsert t ht).2, SymbolTable.entity?_push] at he'
  split at he'
  next =>
    obtain rfl := Option.some.inj he'
    exact .inr ⟨a, List.mem_append_right _ (List.mem_singleton_self a), he⟩
  next => exact .inl he'

theorem declareTypedef (h : Extracted settings ds c) (file : String) (d : TypedefDecl) :
    Extracted settings ds (c.declareTypedef file d) := by
  have hinsert : ∀ t d', c.table.insertTypedef d' = .ok t →
      t.mixins = c.table.mixins ∧ t.slots = c.table.slots := by
    intro t d' ht
    unfold SymbolTable.insertTypedef at ht
    split at ht
    next => cases ht
    next =>
      cases ht
      exact ⟨rfl, rfl⟩
  refine h.declareOther _ _ (fun t ht => (hinsert t _ ht).1) fun t ht x e he => ?_
  rw [SymbolTable.entity?, (hinsert t _ ht).2] at he
  exact .inl he

theorem packageOf_eq (h : Extracted settings ds c) (file : String) :
    c.packageOf file = settings.packageOf file := by
  rw [Compilation.packageOf, h.configured]
  rfl

theorem declareInterface (h : Extracted settings ds c) (file : String) (d : InterfaceDecl) :
    Extracted settings (ds ++ [(file, .interface d)]) (c.declareInterface file d) := by
  unfold Compilation.declareInterface
  rw [h.packageOf_eq]
  dsimp only
  have hreported := h.reportAll (Compilation.interfaceOf file (settings.packageOf file) d).2
  split
  next issue hissue =>
    obtain ⟨hrefused, herror⟩ := Interface.isRefused_of_issue hissue
    refine (hreported.report issue _).skip ?_ rfl rfl rfl fun hclean => ?_
    · simp [interfaceFragment?, hrefused]
    · exact absurd hclean (Compilation.not_clean_report herror _ _)
  next hnone =>
    have hrefused := Interface.not_isRefused hnone
    have hclean : declaredMixin? settings (file, .interface d) = none ∧
        IsAccepted settings (file, .interface d) := ⟨rfl, hrefused⟩
    split
    next hpartial =>
      refine hreported.put ?_ (List.append_nil _).symm (List.append_nil _).symm
        (List.append_nil _).symm fun _ => hclean
      simp [interfaceFragment?, hpartial, hrefused]
    next hpartial =>
      refine hreported.declareEntity ?_ ?_ rfl rfl rfl hclean
      · simp [declaredEntity?, hpartial, hrefused]
      · simp [interfaceFragment?, hpartial]

/-- A mixin is declared, or there is one more error. -/
theorem insertMixin (h : Extracted settings ds c) (file : String) {d : MixinDecl}
    (hpartial : d.isPartial = false) (at_ : Location) :
    Extracted settings (ds ++ [(file, .mixin d)]) (c.declared d.name at_
      (c.table.insertMixin (mixinOf file (settings.packageOf file) d))) := by
  have hdeclared : declaredMixin? settings (file, .mixin d) =
      some (mixinOf file (settings.packageOf file) d) := by simp [declaredMixin?, hpartial]
  have hfragment : mixinFragment? settings (file, .mixin d) = none := by
    simp [mixinFragment?, hpartial]
  unfold Compilation.declared SymbolTable.insertMixin
  split
  next table htable =>
    split at htable
    next => cases htable
    next =>
      cases htable
      refine
        { configured := h.configured
          interfaces := by simp [h.interfaces, interfaceFragment?]
          dictionaries := by simp [h.dictionaries, dictionaryFragment?]
          mixins := by simp [h.mixins, hfragment]
          inclusions := by simp [h.inclusions, inclusion?]
          declared := fun hclean => by simp [h.declared hclean, hdeclared]
          accepted := fun hclean => List.forall_mem_append.mpr
            ⟨h.accepted hclean, List.forall_mem_singleton.mpr trivial⟩
          entities := fun x e he => exists_append (h.entities x e he) _
          mixed := fun m hm => ?_ }
      rcases Array.mem_push.mp hm with hm | rfl
      · exact exists_append (h.mixed m hm) _
      · exact ⟨_, List.mem_append_right _ (List.mem_singleton_self _), hdeclared⟩
  next previous _ =>
    refine (h.report (.duplicateName d.name previous) at_).skip rfl rfl hfragment rfl
      fun hclean => ?_
    exact absurd hclean (Compilation.not_clean_report rfl c at_)

theorem declareMixin (h : Extracted settings ds c) (file : String) (d : MixinDecl) :
    Extracted settings (ds ++ [(file, .mixin d)]) (c.declareMixin file d) := by
  have hmembers : ∀ (b : Body) (issue : Issue) (at_ : Location),
      (if b.constructor.isSome then b.note issue at_ else b).members = b.members := by
    intro b issue at_
    split <;> rfl
  have hpackage : ∀ issues, (c.reportAll issues).packageOf file = settings.packageOf file :=
    fun issues => (h.reportAll issues).packageOf_eq file
  simp only [Compilation.declareMixin, hmembers, hpackage]
  split
  next hpartial =>
    refine (h.reportAll _).put (List.append_nil _).symm (List.append_nil _).symm ?_
      (List.append_nil _).symm fun _ => ⟨?_, trivial⟩
    · simp [mixinFragment?, hpartial, mixinOf]
    · simp [declaredMixin?, hpartial]
  next hpartial => exact (h.reportAll _).insertMixin file (Bool.eq_false_iff.mpr hpartial) _

theorem declareDictionary (h : Extracted settings ds c) (file : String) (d : DictionaryDecl) :
    Extracted settings (ds ++ [(file, .dictionary d)]) (c.declareDictionary file d) := by
  unfold Compilation.declareDictionary
  dsimp only
  rw [(h.reportAll _).packageOf_eq]
  split
  next hpartial =>
    refine (h.reportAll _).put (List.append_nil _).symm ?_ (List.append_nil _).symm
      (List.append_nil _).symm fun _ => ⟨rfl, trivial⟩
    simp [dictionaryFragment?, dictionaryOf, hpartial]
  next hpartial =>
    refine (h.reportAll _).declareEntity ?_ rfl ?_ rfl rfl ⟨rfl, trivial⟩
    · simp [declaredEntity?, dictionaryOf, hpartial]
    · simp [dictionaryFragment?, hpartial]

theorem declareInclusion (h : Extracted settings ds c) (file : String) (d : IncludesDecl) :
    Extracted settings (ds ++ [(file, .includes d)]) (c.declareInclusion file d) :=
  h.put (List.append_nil _).symm (List.append_nil _).symm (List.append_nil _).symm rfl
    fun _ => ⟨rfl, trivial⟩

theorem declareEnumeration (h : Extracted settings ds c) (file : String) (d : EnumerationDecl) :
    Extracted settings (ds ++ [(file, .enumeration d)]) (c.declareEnumeration file d) := by
  have hreported := (h.reportAll (annotationReports ⟨file, d.line.toNat⟩ d.annotations)).reportAll
    ((splitRepeated [] d.values).2.map fun v =>
      (.duplicateEnumValue d.name v, ⟨file, d.line.toNat⟩))
  unfold Compilation.declareEnumeration
  dsimp only
  rw [hreported.packageOf_eq]
  exact hreported.declareEntity rfl rfl rfl rfl rfl ⟨rfl, trivial⟩

theorem declareCallback (h : Extracted settings ds c) (file : String) (d : CallbackDecl) :
    Extracted settings (ds ++ [(file, .callback d)]) (c.declareCallback file d) := by
  have hreported := h.reportAll (annotationReports ⟨file, d.line.toNat⟩ d.annotations)
  unfold Compilation.declareCallback
  dsimp only
  rw [hreported.packageOf_eq]
  exact hreported.declareEntity rfl rfl rfl rfl rfl ⟨rfl, trivial⟩

/-- No callback interface is declared that breaks a rule. -/
theorem callbacks (h : Extracted settings ds c) (x : EntityId) (d : Interface)
    (hd : c.table.entity? x = some (.interface d)) : d.isRefused = false := by
  obtain ⟨⟨file, definition⟩, _, hdeclared⟩ := h.entities x _ hd
  cases definition with
  | interface decl =>
      obtain ⟨hkept, heq⟩ := Option.ite_none_left_eq_some.mp hdeclared
      cases heq
      exact (Bool.or_eq_false_iff.mp (Bool.eq_false_iff.mpr hkept)).2
  | dictionary decl =>
      obtain ⟨_, heq⟩ := Option.ite_none_left_eq_some.mp hdeclared
      cases heq
  | _ => cases hdeclared

end Extracted

/-! ## Runs -/

variable {settings : Settings} {ds : List (String × Definition)} {c c' : Compilation} {u : Unit}

theorem declareDefinition_extracted {file : String} {d : Definition} (h : Extracted settings ds c)
    (hrun : declareDefinition file d c = .ok u c') : Extracted settings (ds ++ [(file, d)]) c' := by
  cases d with
  | enumeration d =>
      rw [update_ok hrun]
      exact h.declareEnumeration file d
  | interface d =>
      rw [update_ok hrun]
      exact h.declareInterface file d
  | mixin d =>
      rw [update_ok hrun]
      exact h.declareMixin file d
  | dictionary d =>
      rw [update_ok hrun]
      exact h.declareDictionary file d
  | includes d =>
      rw [modify_ok.mp hrun]
      exact h.declareInclusion file d
  | callback d =>
      rw [update_ok hrun]
      exact h.declareCallback file d
  | typedef d =>
      rw [update_ok hrun]
      exact (h.declareTypedef file d).skip rfl rfl rfl rfl fun _ => ⟨rfl, trivial⟩
  | implementation d =>
      obtain ⟨_, _, _, hthrow⟩ := bind_ok.mp hrun
      exact absurd hthrow throw_not_ok

/-- The definitions of documents in order, each with the name of its file. -/
def Syntax.located (documents : List Document) : List (String × Definition) :=
  documents.flatMap fun d => d.definitions.map (d.name, ·)

theorem Syntax.mem_located {documents : List Document} {file : String} {d : Definition} :
    (file, d) ∈ located documents ↔
      ∃ document ∈ documents, document.name = file ∧ d ∈ document.definitions := by
  simp only [located, List.mem_flatMap, List.mem_map, Prod.mk.injEq]
  constructor
  · rintro ⟨document, hdocument, d', hd', hfile, rfl⟩
    exact ⟨document, hdocument, hfile, hd'⟩
  · rintro ⟨document, hdocument, hfile, hd⟩
    exact ⟨document, hdocument, d, hd, hfile, rfl⟩

section Rule

-- What every definition carries on.
variable {P : List (String × Definition) → Compilation → Prop}
  (hstep : ∀ {ds file d c c' u}, P ds c → declareDefinition file d c = .ok u c' →
    P (ds ++ [(file, d)]) c')
include hstep

theorem declareDocument_rule {document : Document} (h : P ds c)
    (hrun : declareDocument document c = .ok u c') :
    P (ds ++ document.definitions.map (document.name, ·)) c' := by
  unfold declareDocument at hrun
  generalize document.definitions = definitions at hrun ⊢
  induction definitions generalizing ds c with
  | nil =>
    obtain ⟨_, rfl⟩ := pure_ok.mp hrun
    simpa using h
  | cons d definitions ih =>
    obtain ⟨c₁, hfirst, hrest⟩ := forM_cons_ok.mp hrun
    simpa using ih (hstep h hfirst) hrest

/-- What every definition carries on holds behind documents. -/
theorem declareDocuments_rule {documents : List Document} (h : P ds c)
    (hrun : documents.forM declareDocument c = .ok u c') :
    P (ds ++ Syntax.located documents) c' := by
  induction documents generalizing ds c with
  | nil =>
    obtain ⟨_, rfl⟩ := pure_ok.mp hrun
    simpa [Syntax.located] using h
  | cons document documents ih =>
    obtain ⟨c₁, hfirst, hrest⟩ := forM_cons_ok.mp hrun
    simpa [Syntax.located] using ih (declareDocument_rule hstep h hfirst) hrest

end Rule

/-- What waits and what is declared behind the first stage. -/
theorem declareDocuments_extracted {documents : List Document} (h : Extracted settings ds c)
    (hrun : documents.forM declareDocument c = .ok u c') :
    Extracted settings (ds ++ Syntax.located documents) c' :=
  declareDocuments_rule declareDefinition_extracted h hrun

/-! ## What waits -/

/-- Some document has this definition. -/
def Syntax.Defines (documents : List Document) (d : Definition) : Prop :=
  ∃ document ∈ documents, d ∈ document.definitions

theorem Syntax.defines_iff {documents : List Document} {d : Definition} :
    Defines documents d ↔ ∃ file, (file, d) ∈ located documents := by
  simp only [Defines, mem_located]
  constructor
  · rintro ⟨document, hdocument, hd⟩
    exact ⟨document.name, document, hdocument, rfl, hd⟩
  · rintro ⟨_, document, hdocument, _, hd⟩
    exact ⟨document, hdocument, hd⟩

namespace Extracted

/-- A waiting fragment of an interface is one that some definition puts aside. -/
theorem mem_interfaces (h : Extracted settings ds c) (hclean : c.Clean) {p : Interface} :
    p ∈ c.fragments.interfaces ↔ ∃ file d, (file, .interface d) ∈ ds ∧ d.isPartial = true ∧
      (Compilation.interfaceOf file (settings.packageOf file) d).1 = p := by
  rw [h.interfaces, List.mem_filterMap]
  constructor
  · rintro ⟨⟨file, definition⟩, hmem, hp⟩
    cases definition with
    | interface d =>
        obtain ⟨hkept, heq⟩ := Option.ite_none_right_eq_some.mp hp
        exact ⟨file, d, hmem, (Bool.and_eq_true_iff.mp hkept).1, Option.some.inj heq⟩
    | _ => cases hp
  · rintro ⟨file, d, hmem, hpartial, rfl⟩
    refine ⟨(file, .interface d), hmem, ?_⟩
    have haccepted : (Compilation.interfaceOf file (settings.packageOf file) d).1.isRefused = false :=
      h.accepted hclean _ hmem
    simp [interfaceFragment?, hpartial, haccepted]

/-- A mixin is declared, or it waits if it is a fragment. -/
theorem mem_mixins (h : Extracted settings ds c) (hclean : c.Clean) {m : Mixin} :
    m ∈ c.table.mixins.toList ∨ m ∈ c.fragments.mixins ↔
      ∃ file d, (file, .mixin d) ∈ ds ∧ mixinOf file (settings.packageOf file) d = m := by
  rw [h.declared hclean, h.mixins, List.mem_filterMap, List.mem_filterMap]
  constructor
  · rintro (⟨⟨file, definition⟩, hmem, hm⟩ | ⟨⟨file, definition⟩, hmem, hm⟩)
    · cases definition with
      | mixin d =>
          obtain ⟨_, heq⟩ := Option.ite_none_left_eq_some.mp hm
          exact ⟨file, d, hmem, Option.some.inj heq⟩
      | _ => cases hm
    · cases definition with
      | mixin d =>
          obtain ⟨_, heq⟩ := Option.ite_none_right_eq_some.mp hm
          exact ⟨file, d, hmem, Option.some.inj heq⟩
      | _ => cases hm
  · rintro ⟨file, d, hmem, rfl⟩
    cases hpartial : d.isPartial with
    | true => exact .inr ⟨_, hmem, by simp [mixinFragment?, hpartial]⟩
    | false => exact .inl ⟨_, hmem, by simp [declaredMixin?, hpartial]⟩

theorem mem_inclusions (h : Extracted settings ds c) {s : Inclusion} :
    s ∈ c.fragments.inclusions ↔ ∃ file d, (file, .includes d) ∈ ds ∧
      Inclusion.mk d.target d.mixin ⟨file, d.line.toNat⟩ = s := by
  rw [h.inclusions, List.mem_filterMap]
  constructor
  · rintro ⟨⟨file, definition⟩, hmem, hs⟩
    cases definition with
    | includes d => exact ⟨file, d, hmem, Option.some.inj hs⟩
    | _ => cases hs
  · rintro ⟨file, d, hmem, rfl⟩
    exact ⟨(file, .includes d), hmem, rfl⟩

end Extracted

end IdlModel
