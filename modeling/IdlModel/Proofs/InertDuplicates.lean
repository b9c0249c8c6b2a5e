import IdlModel.Proofs.Readings

/-!
# Inert duplicates

The first declaration of a name keeps it, and a later one is reported and does nothing else.

*Duplicates.*  A definition *declares* a name if it is no fragment and is not refused.  It is a
duplicate if a definition before it declares the same name.  A refused one declares none, so it
does not take the name from those behind it.

*Effective definitions.*  They are neither refused nor duplicates.  The table and the waiting
fragments come from them alone: the run of all definitions and the run of the effective ones go
side by side, and an inert definition is a step of the first run only.

*Reports.*  Each duplicate is reported once, with the place of the first declaration.
-/

namespace IdlModel

open Syntax (Definition Document located)

/-! ## Duplicates -/

/-- The issue of a name that is taken. -/
def Issue.isDuplicateName : Issue → Bool
  | duplicateName .. => true
  | _ => false

/-- The reports of names that are taken, in order. -/
def Log.duplicates (l : Log) : List Diagnostic :=
  l.entries.toList.filter (·.issue.isDuplicateName)

/-- The line of a definition. -/
def Syntax.Definition.line : Definition → UInt64
  | .enumeration d => d.line
  | .interface d => d.line
  | .mixin d => d.line
  | .dictionary d => d.line
  | .includes d => d.line
  | .callback d => d.line
  | .typedef d => d.line
  | .implementation d => d.line

/-- Where a definition in a file is. -/
def placeOf (a : String × Definition) : Location := ⟨a.1, a.2.line.toNat⟩

section Duplicates

variable (settings : Settings)

instance : (a : String × Definition) → Decidable (IsAccepted settings a)
  | (file, .interface d) => inferInstanceAs (Decidable
      ((Compilation.interfaceOf file (settings.packageOf file) d).1.isRefused = false))
  | (_, .enumeration _) | (_, .mixin _) | (_, .dictionary _) | (_, .includes _) | (_, .callback _)
  | (_, .typedef _) | (_, .implementation _) => isTrue trivial

/-- The name that a definition in a file declares.  A fragment and a callback interface that
breaks a rule declare none. -/
def declaresName? : String × Definition → Option String
  | (_, .enumeration d) => some d.name
  | (file, .interface d) =>
      if d.isPartial || (Compilation.interfaceOf file (settings.packageOf file) d).1.isRefused
      then none else some d.name
  | (_, .mixin d) => if d.isPartial then none else some d.name
  | (_, .dictionary d) => if d.isPartial then none else some d.name
  | (_, .callback d) => some d.name
  | (_, .typedef d) => some d.name
  | (_, .includes _) => none
  | (_, .implementation _) => none

/-- Where the first of some definitions that declares a name is. -/
def firstPlace? (ds : List (String × Definition)) (name : String) : Option Location :=
  (ds.find? (declaresName? settings · == some name)).map placeOf

/-- The report of a definition whose name is declared before it. -/
def duplicateReport? (before : List (String × Definition)) (a : String × Definition) :
    Option Diagnostic := do
  let name ← declaresName? settings a
  let previous ← firstPlace? settings before name
  return { issue := .duplicateName name previous, location := some (placeOf a) }

/-- The reports of all duplicates of a list, in order.  It stands behind `before`. -/
def duplicateReports : (before : List (String × Definition)) → List (String × Definition) →
    List Diagnostic
  | _, [] => []
  | before, a :: rest =>
      (duplicateReport? settings before a).toList ++ duplicateReports (before ++ [a]) rest

/-- A definition is neither refused nor a duplicate. -/
def IsEffective (before : List (String × Definition)) (a : String × Definition) : Prop :=
  IsAccepted settings a ∧ duplicateReport? settings before a = none

instance (before : List (String × Definition)) (a : String × Definition) :
    Decidable (IsEffective settings before a) :=
  inferInstanceAs (Decidable (_ ∧ _))

/-- The effective definitions of a file. -/
def effectiveDefinitions (file : String) : (before : List (String × Definition)) →
    List Definition → List Definition
  | _, [] => []
  | before, d :: ds =>
      let rest := effectiveDefinitions file (before ++ [(file, d)]) ds
      if IsEffective settings before (file, d) then d :: rest else rest

/-- The documents with their effective definitions only. -/
def effectiveDocuments : (before : List (String × Definition)) → List Document → List Document
  | _, [] => []
  | before, d :: ds =>
      { d with definitions := effectiveDefinitions settings d.name before d.definitions } ::
        effectiveDocuments (before ++ d.definitions.map (d.name, ·)) ds

end Duplicates

variable {settings : Settings} {file : String} {d : Definition} {a : String × Definition}
  {r : Reading} {ds : List (String × Definition)} {c c' c₁ : Compilation} {u : Unit}

theorem duplicateReports_append (before xs : List (String × Definition)) :
    duplicateReports settings before (xs ++ [a]) =
      duplicateReports settings before xs ++
        (duplicateReport? settings (before ++ xs) a).toList := by
  induction xs generalizing before with
  | nil => simp [duplicateReports]
  | cons x xs ih => simp [duplicateReports, ih]

/-- A further definition does not matter for the names that are declared already. -/
theorem firstPlace?_append (ds : List (String × Definition)) (a : String × Definition)
    (name : String) :
    firstPlace? settings (ds ++ [a]) name =
      (firstPlace? settings ds name).or
        (if declaresName? settings a = some name then some (placeOf a) else none) := by
  unfold firstPlace?
  rw [List.find?_append]
  cases ds.find? (declaresName? settings · == some name) with
  | some b => rfl
  | none =>
      by_cases hname : declaresName? settings a = some name <;> simp [hname]

/-! ## What the deeds declare -/

/-- What the deed of a definition says of its name. -/
inductive Deed.Fits (settings : Settings) (a : String × Definition) : Deed → Prop where
  | refuse {issue : Issue} (at_ : Location) : issue.isDuplicateName = false →
      ¬ IsAccepted settings a → declaresName? settings a = none →
      Fits settings a (.refuse issue at_)
  | aside (add : Fragments → Fragments) : IsAccepted settings a →
      declaresName? settings a = none → Fits settings a (.aside add)
  | enter {d : Declaration} : IsAccepted settings a → declaresName? settings a = some d.name →
      d.source = placeOf a → Fits settings a (.enter d)

theorem not_isDuplicateName {decl : Interface} {issue : Issue}
    (h : callbackViolation? decl = some issue) : issue.isDuplicateName = false := by
  unfold callbackViolation? at h
  dsimp only at h
  repeat' split at h
  all_goals cases h <;> rfl

theorem fits_of_read (h : read? settings file d = some r) : r.deed.Fits settings (file, d) := by
  cases d with
  | interface d =>
      obtain rfl := Option.some.inj h
      unfold readInterface
      dsimp only
      split
      next issue hissue =>
        obtain ⟨hrefused, -⟩ := Interface.isRefused_of_issue hissue
        refine .refuse _ ?_ ?_ ?_
        · exact not_isDuplicateName (Option.ite_none_right_eq_some.mp hissue).2
        · simp [IsAccepted, hrefused]
        · simp [declaresName?, hrefused]
      next hnone =>
        have haccepted := Interface.not_isRefused hnone
        split
        next hpartial => exact .aside _ haccepted (by simp [declaresName?, hpartial])
        next hpartial =>
          exact .enter haccepted (if_neg (by rw [haccepted, Bool.or_false]; exact hpartial)) rfl
  | mixin d | dictionary d =>
      obtain rfl := Option.some.inj h
      dsimp only
      split
      next hpartial => exact .aside _ trivial (by simp [declaresName?, hpartial])
      next hpartial => exact .enter trivial (if_neg hpartial) rfl
  | includes d =>
      obtain rfl := Option.some.inj h
      exact .aside _ trivial rfl
  | enumeration d | callback d | typedef d =>
      obtain rfl := Option.some.inj h
      exact .enter trivial rfl rfl
  | implementation d => cases h

/-! ## What is reported -/

/-- The report of a deed whose name is taken. -/
def Deed.duplicateReport? (t : SymbolTable) : Deed → Option Diagnostic
  | enter d => (t.declaredAt? d.name).map fun previous =>
      { issue := .duplicateName d.name previous, location := some d.source }
  | _ => none

theorem Log.duplicates_add (l : Log) (d : Diagnostic) :
    (l.add d).duplicates = l.duplicates ++ if d.issue.isDuplicateName then [d] else [] := by
  simp [duplicates, add, List.filter_append, List.filter_cons]

theorem duplicates_report_of_false {issue : Issue} (h : issue.isDuplicateName = false)
    (c : Compilation) (at_ : Location) :
    (c.report issue at_).log.duplicates = c.log.duplicates := by
  refine (Log.duplicates_add _ _).trans ?_
  rw [h, if_neg Bool.false_ne_true, List.append_nil]

/-- Warnings are no duplicates. -/
theorem duplicates_reportAll {issues : List LocatedIssue} (h : OnlyWarnings issues)
    (c : Compilation) : (c.reportAll issues).log.duplicates = c.log.duplicates := by
  unfold Compilation.reportAll
  induction issues generalizing c with
  | nil => rfl
  | cons issue issues ih =>
    obtain ⟨hfirst, hrest⟩ := List.forall_mem_cons.mp h
    refine (ih hrest (c.report issue.1 issue.2)).trans (duplicates_report_of_false ?_ c _)
    cases hissue : issue.1 <;> first | rfl | (rw [hissue] at hfirst; cases hfirst)

/-! ## Two runs side by side -/

/-- A run of some definitions, and a run of those that are effective. -/
structure SideBySide (settings : Settings) (ds : List (String × Definition))
    (c c' : Compilation) : Prop where
  settings_eq : c.settings = settings
  settings_eq' : c'.settings = settings
  table_eq : c'.table = c.table
  fragments_eq : c'.fragments = c.fragments
  clean : c'.Clean
  placed : c.table.Placed
  places : ∀ name, c.table.declaredAt? name = firstPlace? settings ds name
  reports : c.log.duplicates = duplicateReports settings [] ds

namespace SideBySide

theorem fresh (settings : Settings) : SideBySide settings [] { settings } { settings } where
  settings_eq := rfl
  settings_eq' := rfl
  table_eq := rfl
  fragments_eq := rfl
  clean := rfl
  placed := SymbolTable.placed_empty
  places _ := rfl
  reports := rfl

theorem duplicateReport?_eq (h : SideBySide settings ds c c') {deed : Deed}
    (hfits : deed.Fits settings a) :
    duplicateReport? settings ds a = deed.duplicateReport? c.table := by
  cases hfits with
  | refuse _ _ _ hname | aside _ _ hname =>
      simp [duplicateReport?, hname, Deed.duplicateReport?]
  | @enter d _ hname hsource =>
      simp only [duplicateReport?, hname, ← h.places, Deed.duplicateReport?, hsource,
        Option.bind_eq_bind, Option.bind_some, Option.map_eq_bind]
      rfl

/-- Each definition adds its report. -/
theorem reports_on (h : SideBySide settings ds c c') (hread : read? settings file d = some r) :
    (r.on c).log.duplicates = duplicateReports settings [] (ds ++ [(file, d)]) := by
  have hfits := fits_of_read hread
  rw [duplicateReports_append, ← h.reports, List.nil_append, h.duplicateReport?_eq hfits,
    Reading.on, ← duplicates_reportAll (onlyWarnings_reports hread) c,
    ← c.table_reportAll r.reports]
  generalize c.reportAll r.reports = c₂
  generalize r.deed = deed at hfits
  cases hfits with
  | refuse at_ hissue =>
      refine (duplicates_report_of_false hissue c₂ at_).trans ?_
      exact (List.append_nil _).symm
  | aside add => exact (List.append_nil _).symm
  | @enter decl =>
      rw [Deed.on_enter, Deed.duplicateReport?]
      cases c₂.table.declaredAt? decl.name with
      | some previous => exact Log.duplicates_add _ _
      | none => exact (List.append_nil _).symm

/-- The table knows the place of each name that is declared. -/
theorem places_on (h : SideBySide settings ds c c') (hread : read? settings file d = some r) :
    (r.on c).table.Placed ∧ ∀ name, (r.on c).table.declaredAt? name =
      firstPlace? settings (ds ++ [(file, d)]) name := by
  rw [(r.on_spec c).2.1]
  have hfits := fits_of_read hread
  generalize r.deed = deed at hfits
  cases hfits with
  | refuse _ _ _ hname | aside _ _ hname =>
      refine ⟨h.placed, fun name => ?_⟩
      rw [firstPlace?_append, hname, ← h.places]
      simp [Deed.tableOn]
  | @enter decl _ hname hsource =>
      by_cases htaken : (c.table.declaredAt? decl.name).isSome = true
      · rw [Deed.tableOn, if_pos htaken]
        refine ⟨h.placed, fun name => ?_⟩
        rw [firstPlace?_append, hname, ← h.places]
        by_cases hsame : decl.name = name
        · obtain ⟨previous, hprevious⟩ := Option.isSome_iff_exists.mp htaken
          rw [← hsame, hprevious, Option.some_or]
        · rw [if_neg (fun heq => hsame (Option.some.inj heq)), Option.or_none]
      · rw [Deed.tableOn, if_neg htaken]
        refine ⟨h.placed.entered decl, fun name => ?_⟩
        rw [h.placed.declaredAt?_entered, firstPlace?_append, hname, ← h.places, hsource]
        by_cases hsame : decl.name = name
        · rw [← hsame, if_pos rfl, if_pos rfl, Option.not_isSome_iff_eq_none.mp htaken,
            Option.none_or]
        · rw [if_neg (Ne.symm hsame), if_neg (fun heq => hsame (Option.some.inj heq)),
            Option.or_none]

/-- An inert definition is no step of the second run. -/
theorem inert (h : SideBySide settings ds c c') (hread : read? settings file d = some r)
    (heffective : ¬ IsEffective settings ds (file, d)) :
    SideBySide settings (ds ++ [(file, d)]) (r.on c) c' := by
  have hfits := fits_of_read hread
  have hreport := h.duplicateReport?_eq hfits
  obtain ⟨hsettings, htable, hfragments⟩ := r.on_spec c
  have hidle : r.deed.tableOn c.table = c.table ∧ r.deed.fragmentsOn c.fragments = c.fragments := by
    generalize r.deed = deed at hfits hreport
    cases hfits with
    | refuse => exact ⟨rfl, rfl⟩
    | aside _ haccepted => exact absurd ⟨haccepted, hreport⟩ heffective
    | @enter decl haccepted =>
        refine ⟨if_pos ?_, rfl⟩
        by_contra hfree
        rw [Deed.duplicateReport?, Option.not_isSome_iff_eq_none.mp hfree] at hreport
        exact heffective ⟨haccepted, hreport⟩
  exact
    { settings_eq := hsettings.trans h.settings_eq
      settings_eq' := h.settings_eq'
      table_eq := by rw [htable, hidle.1, h.table_eq]
      fragments_eq := by rw [hfragments, hidle.2, h.fragments_eq]
      clean := h.clean
      placed := (h.places_on hread).1
      places := (h.places_on hread).2
      reports := h.reports_on hread }

/-- An effective definition is a step of both runs. -/
theorem effective (h : SideBySide settings ds c c') (hread : read? settings file d = some r)
    (heffective : IsEffective settings ds (file, d)) :
    SideBySide settings (ds ++ [(file, d)]) (r.on c) (r.on c') := by
  have hfits := fits_of_read hread
  have hreport := (h.duplicateReport?_eq hfits).symm.trans heffective.2
  obtain ⟨hsettings, htable, hfragments⟩ := r.on_spec c
  obtain ⟨hsettings', htable', hfragments'⟩ := r.on_spec c'
  have hfine : r.deed.fails c'.table = false := by
    rw [h.table_eq]
    generalize r.deed = deed at hfits hreport
    cases hfits with
    | refuse _ _ hrefused => exact absurd heffective.1 hrefused
    | aside => rfl
    | enter => simpa [Deed.fails, Deed.duplicateReport?] using hreport
  exact
    { settings_eq := hsettings.trans h.settings_eq
      settings_eq' := hsettings'.trans h.settings_eq'
      table_eq := by rw [htable, htable', h.table_eq]
      fragments_eq := by rw [hfragments, hfragments', h.fragments_eq]
      clean := by rw [Compilation.Clean, r.errors_on hread, hfine, h.clean]; rfl
      placed := (h.places_on hread).1
      places := (h.places_on hread).2
      reports := h.reports_on hread }

end SideBySide

/-- A definition that can be declared has a reading. -/
theorem exists_read (hrun : declareDefinition file d c = .ok u c₁) :
    ∃ r, read? c.settings file d = some r ∧ c₁ = r.on c := by
  cases hread : read? c.settings file d with
  | some r =>
      rw [declareDefinition_run hread] at hrun
      split at hrun
      next => cases hrun
      next => exact ⟨r, rfl, (EStateM.Result.ok.inj hrun).2.symm⟩
  | none =>
      cases d with
      | implementation d =>
          obtain ⟨_, _, _, hthrow⟩ := bind_ok.mp hrun
          exact absurd hthrow throw_not_ok
      | _ => cases hread

theorem declareDefinitions_effective {definitions : List Definition}
    (h : SideBySide settings ds c c')
    (hrun : definitions.forM (declareDefinition file) c = .ok u c₁) :
    ∃ c₁', (effectiveDefinitions settings file ds definitions).forM (declareDefinition file) c' =
        .ok u c₁' ∧ SideBySide settings (ds ++ definitions.map (file, ·)) c₁ c₁' := by
  induction definitions generalizing ds c c' with
  | nil =>
    obtain ⟨_, rfl⟩ := pure_ok.mp hrun
    exact ⟨c', rfl, by simpa using h⟩
  | cons d definitions ih =>
    obtain ⟨c₂, hfirst, hrest⟩ := forM_cons_ok.mp hrun
    obtain ⟨r, hread, rfl⟩ := exists_read hfirst
    rw [h.settings_eq] at hread
    unfold effectiveDefinitions
    split
    next heffective =>
      have hboth := h.effective hread heffective
      have hstep : declareDefinition file d c' = .ok () (r.on c') := by
        rw [declareDefinition_run (h.settings_eq' ▸ hread), hboth.clean.not_isOverLimit,
          Bool.and_false, if_neg Bool.false_ne_true]
      obtain ⟨c₁', hrun', hside⟩ := ih hboth hrest
      exact ⟨c₁', (forM_cons_run hstep).trans hrun', by simpa using hside⟩
    next heffective =>
      obtain ⟨c₁', hrun', hside⟩ := ih (h.inert hread heffective) hrest
      exact ⟨c₁', hrun', by simpa using hside⟩

theorem declareDocuments_sideBySide {documents : List Document} (h : SideBySide settings ds c c')
    (hrun : documents.forM declareDocument c = .ok u c₁) :
    ∃ c₁', (effectiveDocuments settings ds documents).forM declareDocument c' = .ok u c₁' ∧
      SideBySide settings (ds ++ located documents) c₁ c₁' := by
  induction documents generalizing ds c c' with
  | nil =>
    obtain ⟨_, rfl⟩ := pure_ok.mp hrun
    exact ⟨c', rfl, by simpa [located] using h⟩
  | cons document documents ih =>
    obtain ⟨c₂, hfirst, hrest⟩ := forM_cons_ok.mp hrun
    obtain ⟨c₂', hfirst', hside⟩ := declareDefinitions_effective h hfirst
    obtain ⟨c₁', hrest', hside'⟩ := ih hside hrest
    have hstep : declareDocument { document with
        definitions := effectiveDefinitions settings document.name ds document.definitions } c' =
        .ok ⟨⟩ c₂' := hfirst'
    exact ⟨c₁', (forM_cons_run hstep).trans hrest', by simpa [located] using hside'⟩

/-- Duplicates and refused callback interfaces are inert.  Without them the declaring of the same
documents finishes as well, with the same table and the same waiting fragments, and without any
error.  Each duplicate is reported once, in order, with the place of the first declaration of its
name. -/
theorem declareDocuments_effective {documents : List Document}
    (h : documents.forM declareDocument { settings } = .ok () c) :
    (∃ c', (effectiveDocuments settings [] documents).forM declareDocument { settings } =
        .ok () c' ∧ c'.table = c.table ∧ c'.fragments = c.fragments ∧ c'.Clean) ∧
      c.log.duplicates = duplicateReports settings [] (located documents) := by
  obtain ⟨c', hrun, hside⟩ := declareDocuments_sideBySide (.fresh settings) h
  exact ⟨⟨c', hrun, hside.table_eq, hside.fragments_eq, hside.clean⟩, hside.reports⟩

/-- Two files with `interface Node {};`, a callback interface `Leaf` that has an attribute,
`typedef Node Leaf;`, and then a dictionary `Node` and an enumeration `Leaf`. -/
def repeatedNames : List Document :=
  [{ name := "tree.idl"
     definitions :=
      [.interface { name := "Node", line := 1 },
      .interface
        { name := "Leaf", callback := true, line := 2
          members := [.attribute { name := "next", type := .named "Node" }] },
      .typedef { name := "Leaf", type := .named "Node", line := 3 }] },
  { name := "late.idl"
    definitions :=
      [.dictionary { name := "Node", line := 1 },
      .enumeration { name := "Leaf", values := ["red"], line := 2 }] }]

/-- The refused callback interface leaves its name to the typedef, so two of the five definitions
are duplicates. -/
theorem declareDocuments_effective_repeatedNames :
    ∃ c c', repeatedNames.forM declareDocument { settings := {} } = .ok () c ∧
      (effectiveDocuments {} [] repeatedNames).forM declareDocument { settings := {} } =
        .ok () c' ∧ c'.table = c.table ∧ c'.fragments = c.fragments ∧
      c.log.duplicates.map (fun d => (d.issue, d.location)) =
        [(.duplicateName "Node" ⟨"tree.idl", 1⟩, some ⟨"late.idl", 1⟩),
        (.duplicateName "Leaf" ⟨"tree.idl", 3⟩, some ⟨"late.idl", 2⟩)] := by
  have hanswer : (answer? (repeatedNames.forM declareDocument { settings := {} })).map id =
      some () := by decide +kernel
  obtain ⟨⟨⟩, c, hrun, -⟩ := ok_of_answer? hanswer
  obtain ⟨⟨c', hrun', htable, hfragments, -⟩, hreports⟩ := declareDocuments_effective hrun
  exact ⟨c, c', hrun, hrun', htable, hfragments, by rw [hreports]; rfl⟩

end IdlModel
