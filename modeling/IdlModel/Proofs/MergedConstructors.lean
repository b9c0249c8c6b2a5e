import IdlModel.Proofs.MergedMembers

/-!
# Merged constructors

Which constructor an interface keeps if the first two stages report nothing.

*Bodies.*  The second constructor of one body is reported, and so is every `Constructor`
among extended attributes.  So a definition that is read without a report has one
constructor at most, and keeps it.

*Silence.*  If the log is empty behind some definitions, each was read without a report,
and the entities of the table are those that the definitions declare, in order.

*Merging.*  A fragment gives its constructor to an interface without one.  If there is
one already, that of the fragment is lost, and this is not reported.  So of several
constructors in different bodies the first one remains.
-/

namespace IdlModel

open Syntax

/-! ## Declared constructors -/

/-- The constructor that a member in the body of `owner` is. -/
def constructorMember? (file owner : String) : Member → Option Method
  | .constructor d => some (constructorOf owner d.args ⟨file, d.line.toNat⟩)
  | _ => none

/-- The constructors of an interface definition: those of its body, then those of its
extended attributes. -/
def constructorsOf (file : String) (d : InterfaceDecl) : List Method :=
  d.members.filterMap (constructorMember? file d.name) ++
    (d.annotations.filter (·.name == "Constructor")).map fun a =>
      constructorOf d.name a.args ⟨file, d.line.toNat⟩

/-- The constructors of a definition in a file, if it is a declaration of the interface of a
name, or a fragment of it. -/
def constructorsFor (isPartial : Bool) (name : String) : String × Definition → List Method
  | (file, .interface d) =>
      if d.isPartial = isPartial ∧ d.name = name then constructorsOf file d else []
  | _ => []

/-- The constructors that some definitions declare for the interface of a name: those of its
declaration, then those of its fragments. -/
def declaredConstructors (ds : List (String × Definition)) (name : String) : List Method :=
  ds.flatMap (constructorsFor false name) ++ ds.flatMap (constructorsFor true name)

/-! ## Bodies -/

namespace Body

/-- If a body has no report, it had none before, and it has some more constructors. -/
def Gains (b b' : Body) (constructors : List Method) : Prop :=
  b'.reports = [] → b.reports = [] ∧ b'.constructor.toList = b.constructor.toList ++ constructors

namespace Gains

variable {b b' b'' : Body} {cs cs' : List Method}

theorem refl (b : Body) : b.Gains b [] := fun h => ⟨h, (List.append_nil _).symm⟩

theorem trans (h : b.Gains b' cs) (h' : b'.Gains b'' cs') : b.Gains b'' (cs ++ cs') := by
  intro hreports
  obtain ⟨hreports', hlast⟩ := h' hreports
  obtain ⟨hreports'', hfirst⟩ := h hreports'
  exact ⟨hreports'', by rw [hlast, hfirst, List.append_assoc]⟩

/-- A member that is left out is reported. -/
theorem note (b : Body) (issue : Issue) (at_ : Location) (cs : List Method) :
    b.Gains (b.note issue at_) cs := fun h => by simp [Body.note] at h

theorem extend (b : Body) (m : Members) : b.Gains (b.extend m) [] := refl b

theorem report (b : Body) (reports : List LocatedIssue) :
    b.Gains { b with reports := b.reports ++ reports } [] := fun h =>
  ⟨(List.append_eq_nil_iff.mp h).1, (List.append_nil _).symm⟩

/-- The second constructor of a body is reported. -/
theorem add (file owner : String) (b : Body) (m : Member) :
    b.Gains (b.add file owner m) (constructorMember? file owner m).toList := by
  cases m with
  | constant d => exact extend b _
  | «attribute» d =>
      simp only [Body.add]
      split
      · exact (report b _).trans (extend _ _)
      · exact (report b _).trans (extend _ _)
  | operation d =>
      simp only [Body.add]
      split
      next => exact (report b _).trans (note _ _ _ [])
      next =>
        split
        · exact (report b _).trans (extend _ _)
        · exact (report b _).trans (extend _ _)
  | constructor d =>
      simp only [Body.add]
      split
      next => exact note b _ _ _
      next hnone => exact fun h => ⟨h, by rw [hnone]; rfl⟩
  | iterable _ => exact note b _ _ _
  | maplike _ => exact note b _ _ _
  | setlike _ => exact note b _ _ _
  | stringifier _ => exact note b _ _ _

theorem foldl (file owner : String) (members : List Member) (b : Body) :
    b.Gains (members.foldl (Body.add file owner) b)
      (members.filterMap (constructorMember? file owner)) := by
  induction members generalizing b with
  | nil => exact refl b
  | cons m members ih =>
    have hrun := (add file owner b m).trans (ih (b.add file owner m))
    rw [List.filterMap_eq_flatMap_toList] at hrun ⊢
    exact hrun

end Gains

/-- A body without a report keeps all its constructors. -/
theorem constructors_ofMembers {file owner : String} {members : List Member}
    (h : (ofMembers file owner members).reports = []) :
    (ofMembers file owner members).constructor.toList =
      members.filterMap (constructorMember? file owner) :=
  (Gains.foldl file owner members {} h).2

end Body

/-- A `Constructor` among extended attributes is reported. -/
theorem filter_constructor_of_silent {at_ : Location} {annotations : List Annotation}
    (h : annotationReports at_ annotations = []) :
    annotations.filter (·.name == "Constructor") = [] := by
  refine List.filter_eq_nil_iff.mpr fun a ha hname => ?_
  have hnone := List.filterMap_eq_nil_iff.mp (List.map_eq_nil_iff.mp h) a ha
  rw [beq_iff_eq] at hname
  simp [annotationIssue?, hname] at hnone

/-- An interface definition that is read without a report has one constructor at most. -/
theorem constructor_interfaceOf {file package : String} {d : InterfaceDecl}
    (h : (Compilation.interfaceOf file package d).2 = []) :
    (Compilation.interfaceOf file package d).1.constructor.toList = constructorsOf file d := by
  obtain ⟨hannotations, hbody⟩ := List.append_eq_nil_iff.mp h
  have hnone := filter_constructor_of_silent hannotations
  have hconstructor : (Compilation.interfaceOf file package d).1.constructor =
      (Body.ofMembers file d.name d.members).constructor := by
    simp only [Compilation.interfaceOf, annotatedConstructor?, hnone, List.getLast?_nil,
      Option.map_none]
    cases (Body.ofMembers file d.name d.members).constructor <;> rfl
  rw [hconstructor, Body.constructors_ofMembers hbody, constructorsOf, hnone, List.map_nil,
    List.append_nil]

/-! ## Silence -/

/-- The entities of a table, in order. -/
def SymbolTable.entities (t : SymbolTable) : List Entity := t.slots.toList.map (·.entity)

theorem SymbolTable.getElem?_entities (t : SymbolTable) (x : EntityId) :
    t.entities[x.index]? = t.entity? x := by
  rw [entities, List.getElem?_map, Array.getElem?_toList, entity?]

namespace Compilation

/-- Nothing has been reported. -/
def Silent (c : Compilation) : Prop := c.log.entries = #[]

variable {c c' c'' : Compilation} {es es' : List Entity}

theorem not_silent_report {issue : Issue} {at_ : Location} : ¬ (c.report issue at_).Silent := by
  simp [Silent, report, Log.report, Log.add]

theorem Silent.clean (h : c.Silent) : c.Clean := by
  rw [Clean, errors, Log.errorCount, h]
  rfl

/-- If nothing is reported behind a step, nothing was in front of it, and the table has some
more entities. -/
def Adds (c c' : Compilation) (es : List Entity) : Prop :=
  c'.Silent → c.Silent ∧ c'.table.entities = c.table.entities ++ es

namespace Adds

theorem refl (c : Compilation) : c.Adds c [] := fun h => ⟨h, (List.append_nil _).symm⟩

theorem trans (h : c.Adds c' es) (h' : c'.Adds c'' es') : c.Adds c'' (es ++ es') := by
  intro hsilent
  obtain ⟨hsilent', hlast⟩ := h' hsilent
  obtain ⟨hsilent'', hfirst⟩ := h hsilent'
  exact ⟨hsilent'', by rw [hlast, hfirst, List.append_assoc]⟩

theorem report (issue : Issue) (at_ : Location) (es : List Entity) :
    c.Adds (c.report issue at_) es :=
  fun h => absurd h not_silent_report

theorem reportAll (issues : List LocatedIssue) (c : Compilation) :
    c.Adds (c.reportAll issues) [] := by
  unfold Compilation.reportAll
  induction issues generalizing c with
  | nil => exact refl c
  | cons issue issues ih => exact (report issue.1 issue.2 []).trans (ih _)

/-- A declaration is entered, or it is reported. -/
theorem declared {name : String} {at_ : Location} {attempt : Except Location SymbolTable}
    (h : ∀ t, attempt = .ok t → t.entities = c.table.entities ++ es) :
    c.Adds (c.declared name at_ attempt) es := by
  unfold Compilation.declared
  split
  next t => exact fun hsilent => ⟨hsilent, h t rfl⟩
  next => exact report _ _ es

theorem declareEntity (e : Entity) : c.Adds (c.declareEntity e) [e] := by
  refine declared fun t ht => ?_
  unfold SymbolTable.insert at ht
  split at ht
  next => cases ht
  next =>
    cases ht
    simp [SymbolTable.entities, SymbolTable.push]

theorem declareTypedef (file : String) (d : TypedefDecl) :
    c.Adds (c.declareTypedef file d) [] := by
  refine declared fun t ht => ?_
  unfold SymbolTable.insertTypedef at ht
  split at ht
  next => cases ht
  next =>
    cases ht
    exact (List.append_nil _).symm

theorem declareMixin (file : String) (d : MixinDecl) : c.Adds (c.declareMixin file d) [] := by
  unfold Compilation.declareMixin
  dsimp only
  split
  next => exact reportAll _ c
  next =>
    refine (reportAll _ c).trans (declared fun t ht => ?_)
    unfold SymbolTable.insertMixin at ht
    split at ht
    next => cases ht
    next =>
      cases ht
      exact (List.append_nil _).symm

end Adds

/-- What is reported in front of a silent state is nothing. -/
theorem silent_reportAll {issues : List LocatedIssue} (h : (c.reportAll issues).Silent) :
    issues = [] := by
  cases issues with
  | nil => rfl
  | cons issue issues => exact absurd (Adds.reportAll issues _ h).1 not_silent_report

end Compilation

/-- A definition is read without a report.  Only the reports on interfaces matter here. -/
def IsSilent (settings : Settings) : String × Definition → Prop
  | (file, .interface d) => (Compilation.interfaceOf file (settings.packageOf file) d).2 = []
  | _ => True

/-- What waits and what is declared behind some definitions, if they are read without a
report. -/
structure Listed (settings : Settings) (ds : List (String × Definition)) (c : Compilation) :
    Prop extends Extracted settings ds c where
  entered : c.Silent → c.table.entities = ds.filterMap (declaredEntity? settings)
  silent : c.Silent → ∀ a ∈ ds, IsSilent settings a

namespace Extracted

open Compilation (Adds)

variable {settings : Settings} {ds : List (String × Definition)} {c c' : Compilation} {u : Unit}

/-- The entity of an interface is entered, if nothing is reported. -/
theorem adds_interface (h : Extracted settings ds c) (file : String) (d : InterfaceDecl) :
    c.Adds (c.declareInterface file d) (declaredEntity? settings (file, .interface d)).toList ∧
      ((c.declareInterface file d).Silent → IsSilent settings (file, .interface d)) := by
  unfold Compilation.declareInterface
  rw [h.packageOf_eq]
  dsimp only
  have hreported := Adds.reportAll (Compilation.interfaceOf file (settings.packageOf file) d).2 c
  split
  next =>
    exact ⟨fun hc' => absurd hc' Compilation.not_silent_report,
      fun hc' => absurd hc' Compilation.not_silent_report⟩
  next hnone =>
    have hrefused := Interface.not_isRefused hnone
    split
    next hpartial =>
      have hentity : declaredEntity? settings (file, .interface d) = none := by
        simp [declaredEntity?, hpartial]
      rw [hentity]
      exact ⟨hreported, fun hc' => Compilation.silent_reportAll hc'⟩
    next hpartial =>
      have hentity : declaredEntity? settings (file, .interface d) =
          some (.interface (Compilation.interfaceOf file (settings.packageOf file) d).1) := by
        simp [declaredEntity?, hpartial, hrefused]
      rw [hentity]
      have hdeclared := Adds.declareEntity
        (c := c.reportAll (Compilation.interfaceOf file (settings.packageOf file) d).2)
        (.interface (Compilation.interfaceOf file (settings.packageOf file) d).1)
      exact ⟨hreported.trans hdeclared, fun hc' => Compilation.silent_reportAll (hdeclared hc').1⟩

theorem adds_enumeration (h : Extracted settings ds c) (file : String) (d : EnumerationDecl) :
    c.Adds (c.declareEnumeration file d)
      (declaredEntity? settings (file, .enumeration d)).toList := by
  have hpackage := ((h.reportAll (annotationReports ⟨file, d.line.toNat⟩ d.annotations)).reportAll
    ((splitRepeated [] d.values).2.map fun v =>
      (.duplicateEnumValue d.name v, ⟨file, d.line.toNat⟩))).packageOf_eq file
  unfold Compilation.declareEnumeration
  dsimp only
  rw [hpackage]
  exact ((Adds.reportAll _ c).trans (Adds.reportAll _ _)).trans (Adds.declareEntity _)

theorem adds_dictionary (h : Extracted settings ds c) (file : String) (d : DictionaryDecl) :
    c.Adds (c.declareDictionary file d)
      (declaredEntity? settings (file, .dictionary d)).toList := by
  unfold Compilation.declareDictionary
  dsimp only
  rw [(h.reportAll _).packageOf_eq]
  split
  next hpartial =>
    have hentity : declaredEntity? settings (file, .dictionary d) = none := by
      simp [declaredEntity?, hpartial]
    rw [hentity]
    exact Adds.reportAll _ c
  next hpartial =>
    have hentity : declaredEntity? settings (file, .dictionary d) =
        some (.dictionary (dictionaryOf file (settings.packageOf file) d)) := by
      simp [declaredEntity?, hpartial]
    rw [hentity]
    exact (Adds.reportAll _ c).trans (Adds.declareEntity _)

theorem adds_callback (h : Extracted settings ds c) (file : String) (d : CallbackDecl) :
    c.Adds (c.declareCallback file d) (declaredEntity? settings (file, .callback d)).toList := by
  unfold Compilation.declareCallback
  dsimp only
  rw [(h.reportAll _).packageOf_eq]
  exact (Adds.reportAll _ c).trans (Adds.declareEntity _)

end Extracted

namespace Listed

variable {settings : Settings} {ds : List (String × Definition)} {c c' : Compilation} {u : Unit}

theorem fresh (settings : Settings) : Listed settings [] { settings } where
  toExtracted := .fresh settings
  entered _ := rfl
  silent _ _ ha := nomatch ha

/-- A definition adds the entity that it declares. -/
theorem step (h : Listed settings ds c) {a : String × Definition}
    (hextracted : Extracted settings (ds ++ [a]) c')
    (hadds : c.Adds c' (declaredEntity? settings a).toList)
    (hsilent : c'.Silent → IsSilent settings a) : Listed settings (ds ++ [a]) c' where
  toExtracted := hextracted
  entered hc' := by
    obtain ⟨hc, hentities⟩ := hadds hc'
    rw [hentities, h.entered hc, List.filterMap_append, List.filterMap_eq_flatMap_toList _ [a],
      List.flatMap_singleton]
  silent hc' := List.forall_mem_append.mpr
    ⟨h.silent (hadds hc').1, List.forall_mem_singleton.mpr (hsilent hc')⟩

theorem declareDefinition {file : String} {d : Definition} (h : Listed settings ds c)
    (hrun : declareDefinition file d c = .ok u c') : Listed settings (ds ++ [(file, d)]) c' := by
  have hextracted := declareDefinition_extracted h.toExtracted hrun
  cases d with
  | enumeration d =>
      obtain rfl := update_ok hrun
      exact h.step hextracted (h.adds_enumeration file d) fun _ => trivial
  | interface d =>
      obtain rfl := update_ok hrun
      obtain ⟨hadds, hsilent⟩ := h.adds_interface file d
      exact h.step hextracted hadds hsilent
  | mixin d =>
      obtain rfl := update_ok hrun
      exact h.step hextracted (.declareMixin file d) fun _ => trivial
  | dictionary d =>
      obtain rfl := update_ok hrun
      exact h.step hextracted (h.adds_dictionary file d) fun _ => trivial
  | includes d =>
      obtain rfl := modify_ok.mp hrun
      exact h.step hextracted (.refl c) fun _ => trivial
  | callback d =>
      obtain rfl := update_ok hrun
      exact h.step hextracted (h.adds_callback file d) fun _ => trivial
  | typedef d =>
      obtain rfl := update_ok hrun
      exact h.step hextracted (.declareTypedef file d) fun _ => trivial
  | implementation d =>
      obtain ⟨_, _, _, hthrow⟩ := bind_ok.mp hrun
      exact absurd hthrow throw_not_ok

end Listed

/-! ## The first of several constructors -/

/-- The constructor of an interface, if it has this name. -/
def Interface.constructorFor? (name : String) (d : Interface) : Option Method :=
  if d.identity.idl = name then d.constructor else none

/-- The constructor of an interface of a name, and none of any other entity. -/
def Entity.constructorFor? (name : String) : Entity → Option Method
  | .interface d => d.constructorFor? name
  | _ => none

section Constructors

variable {settings : Settings} {name : String} {a : String × Definition}

theorem constructorsFor_interface {file package : String} {d : InterfaceDecl}
    (h : (Compilation.interfaceOf file package d).2 = []) (isPartial : Bool) (name : String) :
    constructorsFor isPartial name (file, .interface d) =
      if d.isPartial = isPartial then
        ((Compilation.interfaceOf file package d).1.constructorFor? name).toList
      else [] := by
  have hname : (Compilation.interfaceOf file package d).1.identity.idl = d.name := rfl
  rw [constructorsFor, Interface.constructorFor?, hname, ← constructor_interfaceOf h]
  by_cases hpartial : d.isPartial = isPartial <;> by_cases hname : d.name = name <;>
    simp [hpartial, hname]

/-- The entity that a silent definition declares has all its constructors. -/
theorem constructorsFor_declared (haccepted : IsAccepted settings a)
    (hsilent : IsSilent settings a) :
    constructorsFor false name a =
      ((declaredEntity? settings a).bind (Entity.constructorFor? name)).toList := by
  obtain ⟨file, definition⟩ := a
  cases definition with
  | interface d =>
      have hrefused : (Compilation.interfaceOf file (settings.packageOf file) d).1.isRefused =
        false := haccepted
      rw [constructorsFor_interface hsilent, declaredEntity?, hrefused]
      cases d.isPartial <;> rfl
  | dictionary d =>
      show [] = ((if d.isPartial then none else some _).bind (Entity.constructorFor? name)).toList
      cases d.isPartial <;> rfl
  | _ => rfl

/-- The fragment that a silent definition puts aside has all its constructors. -/
theorem constructorsFor_fragment (haccepted : IsAccepted settings a)
    (hsilent : IsSilent settings a) :
    constructorsFor true name a =
      ((interfaceFragment? settings a).bind (Interface.constructorFor? name)).toList := by
  obtain ⟨file, definition⟩ := a
  cases definition with
  | interface d =>
      have hrefused : (Compilation.interfaceOf file (settings.packageOf file) d).1.isRefused =
        false := haccepted
      rw [constructorsFor_interface hsilent, interfaceFragment?, hrefused]
      cases d.isPartial <;> rfl
  | _ => rfl

end Constructors

/-- The only value of a list that says something. -/
theorem filterMap_eq_toList {α β : Type} {l : List α} {g : α → Option β} {i : Nat} {v : α}
    (hv : l[i]? = some v) (h : ∀ j w, l[j]? = some w → (g w).isSome → j = i) :
    l.filterMap g = (g v).toList := by
  induction l generalizing i with
  | nil => cases hv
  | cons w l ih =>
    have hrest : ∀ j w', l[j]? = some w' → (g w').isSome → j + 1 = i := fun j w' hw' =>
      h (j + 1) w' hw'
    cases i with
    | zero =>
        obtain rfl := Option.some.inj hv
        have hnone : l.filterMap g = [] := List.filterMap_eq_nil_iff.mpr fun w' hw' => by
          obtain ⟨j, hj⟩ := List.mem_iff_getElem?.mp hw'
          cases hg : g w' with
          | none => rfl
          | some m => exact absurd (hrest j w' hj (by rw [hg]; rfl)) (Nat.succ_ne_zero j)
        rw [List.filterMap_cons, hnone]
        cases g w <;> rfl
    | succ i =>
        have hw : g w = none := by
          cases hg : g w with
          | none => rfl
          | some m => exact absurd (h 0 w rfl (by rw [hg]; rfl)) (Nat.succ_ne_zero i).symm
        rw [List.filterMap_cons_none hw]
        exact ih hv fun j w' hw' hsome => Nat.succ.inj (hrest j w' hw' hsome)

/-- The first of a list is all of it if there is no other. -/
theorem forall_head?_eq_iff {α : Type} (l : List α) :
    (∀ a ∈ l, l.head? = some a) ↔ ∀ a ∈ l, ∀ b ∈ l, a = b := by
  constructor
  · intro h a ha b hb
    exact Option.some.inj ((h a ha).symm.trans (h b hb))
  · intro h a ha
    cases l with
    | nil => cases ha
    | cons b l => exact congrArg some (h b List.mem_cons_self a ha)

section Merging

variable {settings : Settings} {ds : List (String × Definition)} {c merged : Compilation}
  {x : EntityId} {d : Interface}

/-- Behind silent definitions an interface has the constructors of its declaration. -/
theorem Listed.constructor_declared (h : Listed settings ds c) (hc : c.Silent)
    (htable : c.table.Declared) (hd : c.table.entity? x = some (.interface d)) :
    ds.flatMap (constructorsFor false d.identity.idl) = d.constructor.toList := by
  have hdefinitions : ds.flatMap (constructorsFor false d.identity.idl) =
      ds.flatMap fun a =>
        ((declaredEntity? settings a).bind (Entity.constructorFor? d.identity.idl)).toList :=
    List.flatMap_congr fun a ha =>
      constructorsFor_declared (h.accepted hc.clean a ha) (h.silent hc a ha)
  have hself : Entity.constructorFor? d.identity.idl (.interface d) = d.constructor := if_pos rfl
  rw [hdefinitions, ← List.filterMap_eq_flatMap_toList, ← List.filterMap_filterMap, ← h.entered hc,
    ← hself]
  refine filterMap_eq_toList ((c.table.getElem?_entities x).trans hd) fun j e he hsome => ?_
  rw [c.table.getElem?_entities ⟨j⟩] at he
  cases e with
  | interface d' =>
      have hname : d'.identity.idl = d.identity.idl := by
        by_contra hne
        simp [Entity.constructorFor?, Interface.constructorFor?, hne] at hsome
      exact congrArg EntityId.index (htable.id_unique he hd hname)
  | _ => cases hsome

/-- The fragments that wait have the constructors of the definitions. -/
theorem Listed.constructor_fragments (h : Listed settings ds c) (hc : c.Silent) (name : String) :
    (ds.flatMap (constructorsFor true name)).head? =
      ((Fragments.ofDefinitions settings ds).interfacesOf name).findSome? (·.constructor) := by
  have hdefinitions : ds.flatMap (constructorsFor true name) =
      ds.flatMap fun a =>
        ((interfaceFragment? settings a).bind (Interface.constructorFor? name)).toList :=
    List.flatMap_congr fun a ha =>
      constructorsFor_fragment (h.accepted hc.clean a ha) (h.silent hc a ha)
  rw [hdefinitions, ← List.filterMap_eq_flatMap_toList, ← List.filterMap_filterMap,
    Fragments.interfacesOf, ← List.head?_filterMap, List.filterMap_filter]
  simp only [beq_iff_eq]
  rfl

/-- So the first of all that are declared is that of the merged interface. -/
theorem Listed.constructor_completed (h : Listed settings ds c) (hc : c.Silent)
    (htable : c.table.Declared) (hd : c.table.entity? x = some (.interface d)) :
    ((Fragments.ofDefinitions settings ds).completeInterface c.table d).constructor =
      (declaredConstructors ds d.identity.idl).head? := by
  show (d.constructor <|> List.findSome? _ _) = _
  rw [declaredConstructors, List.head?_append, h.constructor_fragments hc,
    h.constructor_declared hc htable hd, Option.head?_toList]
  cases d.constructor <;> rfl

/-- Merging reports nothing only if nothing was reported in front of it. -/
theorem silent_of_mergeFragments {u : Unit} (h : mergeFragments c = .ok u merged)
    (hsilent : merged.Silent) : c.Silent := by
  obtain ⟨-, hstate⟩ := mergeFragments_spec h
  have hlog : merged.log = c.log.reportAll (c.fragments.problems c.table merged.table) :=
    congrArg Compilation.log hstate
  rw [Compilation.Silent, hlog] at hsilent
  have hall : ∀ (issues : List LocatedIssue) (l : Log),
      (l.reportAll issues).entries = #[] → l.entries = #[] := by
    intro issues
    induction issues with
    | nil => exact fun _ h => h
    | cons issue issues ih =>
      intro l h
      have hreported : (l.report issue.1 issue.2).entries = #[] := ih _ h
      simp [Log.report, Log.add] at hreported
  exact hall _ _ hsilent

/-- An interface behind merging was one in front of it. -/
theorem SymbolTable.Merged.interface_before {t t' : SymbolTable} {f : Fragments} (ht : t.Declared)
    (hmerged : t.Merged f t') (hd : t'.entity? x = some (.interface d)) :
    ∃ d₀, t.entity? x = some (.interface d₀) ∧ d = f.completeInterface t d₀ := by
  cases he : t.entity? x with
  | none =>
      rw [hmerged.entities, he] at hd
      cases hd
  | some e =>
      rw [hmerged.entity_eq ht he] at hd
      cases e with
      | interface d₀ => exact ⟨d₀, rfl, (Entity.interface.inj (Option.some.inj hd)).symm⟩
      | _ => cases hd

/-- If the first two stages finish and report nothing, an interface has the first of the
constructors that its declaration and its fragments declare.  So it has all of them if and only if
they do not differ, and of two that differ one is lost without a report.  Within one definition
none is lost. -/
theorem silentMerge_constructor_iff {documents : List Document} {extracted : Compilation}
    (hextract : documents.forM declareDocument { settings } = .ok () extracted)
    (hmerge : mergeFragments extracted = .ok () merged) (hsilent : merged.Silent)
    (hd : merged.table.entity? x = some (.interface d)) :
    let constructors := declaredConstructors (located documents) d.identity.idl
    d.constructor = constructors.head? ∧
      ((∀ m ∈ constructors, d.constructor = some m) ↔
        ∀ m ∈ constructors, ∀ m' ∈ constructors, m = m') ∧
      ∀ file decl, (file, .interface decl) ∈ located documents →
        (constructorsOf file decl).length ≤ 1 := by
  intro constructors
  have hlisted : Listed settings (located documents) extracted :=
    declareDocuments_rule Listed.declareDefinition (Listed.fresh settings) hextract
  have hquiet := silent_of_mergeFragments hmerge hsilent
  have htable := (keeps_declareDocuments documents _ (.fresh settings) () extracted hextract).table
  obtain ⟨hmerged, -⟩ := mergeFragments_spec hmerge
  rw [hlisted.fragments_eq] at hmerged
  obtain ⟨d₀, hd₀, rfl⟩ := hmerged.interface_before htable hd
  have hfirst := hlisted.constructor_completed hquiet htable hd₀
  refine ⟨hfirst, hfirst ▸ forall_head?_eq_iff constructors, fun file decl hmem => ?_⟩
  rw [← constructor_interfaceOf (hlisted.silent hquiet _ hmem)]
  exact Option.length_toList_le

end Merging

/-- The definitions `interface Node { constructor(); };`,
`partial interface Node { constructor(long depth); };`,
`partial interface Leaf { constructor(); };` and `interface Leaf {};`. -/
def nodeAndLeaf : Document :=
  { name := "node.idl"
    definitions :=
      [.interface { name := "Node", members := [.constructor {}] },
      .interface
        { name := "Node"
          isPartial := true
          members := [.constructor { args := [{ name := "depth", type := .named "long" }] }] },
      .interface { name := "Leaf", isPartial := true, members := [.constructor {}] },
      .interface { name := "Leaf" }] }

theorem declareAndMerge_nodeAndLeaf :
    (answer? (declareAndMerge [nodeAndLeaf] { settings := {} })).map (fun r =>
      (r.2.log.entries.size,
        (r.2.table.interface? ⟨0⟩).map fun d =>
          (d.identity.idl, d.constructor.map (·.params.length)),
        (r.2.table.interface? ⟨1⟩).map fun d => d.identity.idl)) =
      some (0, some ("Node", some 0), some "Leaf") := by
  decide +kernel

theorem silentMerge_constructor_iff_leaf :
    ∃ extracted merged d, [nodeAndLeaf].forM declareDocument { settings := {} } = .ok () extracted ∧
      mergeFragments extracted = .ok () merged ∧ merged.Silent ∧
      merged.table.entity? ⟨1⟩ = some (.interface d) ∧
      d.constructor = (declaredConstructors (located [nodeAndLeaf]) d.identity.idl).head? ∧
      ∀ m ∈ declaredConstructors (located [nodeAndLeaf]) d.identity.idl,
        d.constructor = some m := by
  obtain ⟨⟨extracted, merged⟩, _, hrun, hresult⟩ := ok_of_answer? declareAndMerge_nodeAndLeaf
  obtain ⟨hextract, hmerge⟩ := declareAndMerge_ok hrun
  obtain ⟨hsize, hinterfaces⟩ := Prod.mk.inj hresult
  obtain ⟨d, hd, hname⟩ := Option.map_eq_some_iff.mp (Prod.mk.inj hinterfaces).2
  rw [SymbolTable.interface?_eq_some] at hd
  have hsilent := Array.eq_empty_of_size_eq_zero hsize
  obtain ⟨hfirst, hall, -⟩ := silentMerge_constructor_iff hextract hmerge hsilent hd
  refine ⟨extracted, merged, d, hextract, hmerge, hsilent, hd, hfirst, hall.mpr ?_⟩
  rw [hname]
  intro m hm m' hm'
  exact (List.mem_singleton.mp hm).trans (List.mem_singleton.mp hm').symm

/-- A constructor of a fragment is lost, and nothing is reported. -/
theorem exists_constructor_lost_silently :
    ∃ (documents : List Document) (settings : Settings) (extracted merged : Compilation)
      (x : EntityId) (d : Interface) (m : Method),
        documents.forM declareDocument { settings } = .ok () extracted ∧
          mergeFragments extracted = .ok () merged ∧ merged.Silent ∧
          merged.table.entity? x = some (.interface d) ∧
          m ∈ declaredConstructors (located documents) d.identity.idl ∧ d.constructor ≠ some m := by
  obtain ⟨⟨extracted, merged⟩, _, hrun, hresult⟩ := ok_of_answer? declareAndMerge_nodeAndLeaf
  obtain ⟨hextract, hmerge⟩ := declareAndMerge_ok hrun
  obtain ⟨hsize, hinterfaces⟩ := Prod.mk.inj hresult
  obtain ⟨d, hd, hpair⟩ := Option.map_eq_some_iff.mp (Prod.mk.inj hinterfaces).1
  obtain ⟨hname, hparams⟩ := Prod.mk.inj hpair
  refine ⟨[nodeAndLeaf], {}, extracted, merged, ⟨0⟩, d,
    constructorOf "Node" [{ name := "depth", type := .named "long" }] ⟨"node.idl", 0⟩, hextract,
    hmerge, Array.eq_empty_of_size_eq_zero hsize, SymbolTable.interface?_eq_some.mp hd, ?_,
    fun h => ?_⟩
  · rw [hname]
    exact List.mem_append_right _ (List.mem_singleton_self _)
  · rw [h] at hparams
    cases hparams

end IdlModel
