import IdlModel.Proofs.WaitingFragments

/-!
# Readings of definitions

A definition is read without the table.  Its *reading* is a list of reports and one deed.

*Deeds.*  A definition is refused, or it puts something aside, or it enters a declaration if the
name of this is free.  Only a refusal and a taken name are errors: `Reading.severity_reports` and
`Reading.errors_on`.

*Entering.*  Entities, mixins and typedefs share one index of names.  Each is entered in the same
way, so what is said of one is said once: `SymbolTable.enter_eq`.

*Runs.*  To declare a definition is to act on its reading, and then to poll unless it is an
includes statement: `declareDefinition_run`.
-/

namespace IdlModel

open Syntax (Definition)

/-! ## Declarations -/

/-- Something that a name can stand for. -/
inductive Declaration where
  | entity (e : Entity)
  | mixin (d : Mixin)
  | typedef (d : Typedef)

namespace Declaration

/-- The name. -/
def name : Declaration → String
  | entity e => e.key
  | mixin d => d.identity.idl
  | typedef d => d.idl

/-- Where it is declared. -/
def source : Declaration → Location
  | entity e => e.source
  | mixin d => d.identity.source
  | typedef d => d.source

end Declaration

namespace SymbolTable

variable {t t' : SymbolTable} {d : Declaration}

/-- Enter a declaration if its name is free. -/
def enter (t : SymbolTable) : Declaration → Except Location SymbolTable
  | .entity e => t.insert e
  | .mixin d => t.insertMixin d
  | .typedef d => t.insertTypedef d

/-- The table with a declaration entered under a free name. -/
def entered (t : SymbolTable) : Declaration → SymbolTable
  | .entity e => { t.push e with names := t.names.put e.key (.type t.nextId) }
  | .mixin d =>
      { t with
        mixins := t.mixins.push d
        names := t.names.put d.identity.idl (.mixin t.mixins.size) }
  | .typedef d =>
      { t with
        typedefs := t.typedefs.push d
        names := t.names.put d.idl (.typedef t.typedefs.size) }

theorem enter_eq (t : SymbolTable) (d : Declaration) :
    t.enter d =
      match t.declaredAt? d.name with
      | some previous => .error previous
      | none => .ok (t.entered d) := by
  cases d <;> rfl

/-- Every name stands for something that has a place. -/
def Placed (t : SymbolTable) : Prop :=
  ∀ name symbol, t.lookup? name = some symbol → ∃ at_, t.sourceOf? symbol = some at_

theorem placed_empty : Placed {} := fun _ _ h => nomatch h

/-- The symbol of a declaration that is entered. -/
theorem exists_symbol_entered (t : SymbolTable) (d : Declaration) :
    ∃ symbol, (t.entered d).names = t.names.put d.name symbol ∧
      (t.entered d).sourceOf? symbol = some d.source ∧
      ∀ other at_, t.sourceOf? other = some at_ → (t.entered d).sourceOf? other = some at_ := by
  -- What was in a place before is still there.
  have hpush : ∀ {α : Type} {f : α → Location} (xs : Array α) (x : α) {i : Nat} {at_ : Location},
      xs[i]?.map f = some at_ → (xs.push x)[i]?.map f = some at_ := by
    intro α f xs x i at_ h
    obtain ⟨y, hy, rfl⟩ := Option.map_eq_some_iff.mp h
    obtain ⟨hi, -⟩ := Array.getElem?_eq_some_iff.mp hy
    rw [Array.getElem?_push, if_neg (Nat.ne_of_lt hi), hy, Option.map_some]
  cases d with
  | entity e =>
      refine ⟨.type t.nextId, rfl, ?_, fun other at_ hother => ?_⟩
      · exact congrArg (Option.map Entity.source) (t.entity?_push_self e)
      · cases other with
        | type id =>
            obtain ⟨e', he', rfl⟩ := Option.map_eq_some_iff.mp hother
            have hkept := (t.entity?_push_of_ne (ne_nextId he') e).trans he'
            exact congrArg (Option.map Entity.source) hkept
        | _ => exact hother
  | mixin d =>
      refine ⟨.mixin t.mixins.size, rfl, ?_, fun other at_ hother => ?_⟩
      · simp [entered, sourceOf?, Declaration.source]
      · cases other with
        | mixin i => exact hpush t.mixins d hother
        | _ => exact hother
  | typedef d =>
      refine ⟨.typedef t.typedefs.size, rfl, ?_, fun other at_ hother => ?_⟩
      · simp [entered, sourceOf?, Declaration.source]
      · cases other with
        | typedef i => exact hpush t.typedefs d hother
        | _ => exact hother

/-- A declaration that is entered is found under its name, and the others stay. -/
theorem Placed.declaredAt?_entered (h : t.Placed) (d : Declaration) (name : String) :
    (t.entered d).declaredAt? name =
      if name = d.name then some d.source else t.declaredAt? name := by
  obtain ⟨symbol, hnames, hself, hothers⟩ := t.exists_symbol_entered d
  rw [declaredAt?, lookup?, hnames, Register.find?_put]
  split
  next => exact hself
  next =>
    show (t.lookup? name).bind _ = (t.lookup? name).bind _
    cases hlookup : t.lookup? name with
    | none => rfl
    | some other =>
        obtain ⟨at_, hat⟩ := h name other hlookup
        exact (hothers other at_ hat).trans hat.symm

theorem Placed.entered (h : t.Placed) (d : Declaration) : (t.entered d).Placed := by
  obtain ⟨symbol, hnames, hself, hothers⟩ := t.exists_symbol_entered d
  intro name other hlookup
  rw [lookup?, hnames, Register.find?_put] at hlookup
  split at hlookup
  next =>
    obtain rfl := Option.some.inj hlookup
    exact ⟨_, hself⟩
  next =>
    obtain ⟨at_, hat⟩ := h name other hlookup
    exact ⟨at_, hothers other at_ hat⟩

end SymbolTable

/-! ## Deeds -/

/-- What a definition does, its reports apart. -/
inductive Deed where
  /-- It is reported and lost. -/
  | refuse (issue : Issue) (at_ : Location)
  /-- It puts something aside. -/
  | aside (add : Fragments → Fragments)
  /-- It enters a declaration. -/
  | enter (d : Declaration)

/-- What a definition says. -/
structure Reading where
  /-- What is to be said of it. -/
  reports : List LocatedIssue
  /-- What it does. -/
  deed : Deed

/-- Do a deed. -/
def Deed.on (c : Compilation) : Deed → Compilation
  | refuse issue at_ => c.report issue at_
  | aside add => { c with fragments := add c.fragments }
  | enter d => c.declared d.name d.source (c.table.enter d)

/-- Act on a reading. -/
def Reading.on (r : Reading) (c : Compilation) : Compilation := r.deed.on (c.reportAll r.reports)

/-! ## Readings -/

section Read

variable (settings : Settings) (file : String)

/-- The reading of a declaration of an interface. -/
def readInterface (d : Syntax.InterfaceDecl) : Reading :=
  let (decl, reports) := Compilation.interfaceOf file (settings.packageOf file) d
  { reports
    deed :=
      match if decl.callback then callbackViolation? decl else none with
      | some issue => .refuse issue decl.identity.source
      | none =>
          if d.isPartial then .aside fun f => { f with interfaces := f.interfaces ++ [decl] }
          else .enter (.entity (.interface decl)) }

/-- The reading of a definition.  An implements statement has none. -/
def read? : Definition → Option Reading
  | .enumeration d =>
      let at_ : Location := ⟨file, d.line.toNat⟩
      some
        { reports := annotationReports at_ d.annotations ++
            (splitRepeated [] d.values).2.map fun v => (.duplicateEnumValue d.name v, at_)
          deed := .enter (.entity (.enumeration
            { identity := .ofIdl d.name (settings.packageOf file) at_
              values := (splitRepeated [] d.values).1 })) }
  | .interface d => some (readInterface settings file d)
  | .mixin d =>
      let at_ : Location := ⟨file, d.line.toNat⟩
      let body := Body.ofMembers file d.name d.members
      let said :=
        if body.constructor.isSome then body.note (Body.unsupported "constructor" d.name) at_
        else body
      some
        { reports := annotationReports at_ d.annotations ++ said.reports
          deed :=
            if d.isPartial then
              .aside fun f =>
                { f with mixins := f.mixins ++ [mixinOf file (settings.packageOf file) d] }
            else .enter (.mixin (mixinOf file (settings.packageOf file) d)) }
  | .dictionary d =>
      some
        { reports := annotationReports ⟨file, d.line.toNat⟩ d.annotations
          deed :=
            if d.isPartial then
              .aside fun f =>
                { f with
                  dictionaries :=
                    f.dictionaries ++ [dictionaryOf file (settings.packageOf file) d] }
            else .enter (.entity (.dictionary (dictionaryOf file (settings.packageOf file) d))) }
  | .includes d =>
      let inclusion : Inclusion :=
        { target := d.target, mixin := d.mixin, source := ⟨file, d.line.toNat⟩ }
      some
        { reports := []
          deed := .aside fun f => { f with inclusions := f.inclusions ++ [inclusion] } }
  | .callback d =>
      let at_ : Location := ⟨file, d.line.toNat⟩
      some
        { reports := annotationReports at_ d.annotations
          deed := .enter (.entity (.callback
            { identity := .ofIdl d.name (settings.packageOf file) at_
              result := .ofExpr d.returnType
              params := parametersOf d.args })) }
  | .typedef d =>
      some
        { reports := []
          deed := .enter (.typedef
            { idl := d.name, type := .ofExpr d.type, source := ⟨file, d.line.toNat⟩ }) }
  | .implementation _ => none

end Read

/-! ## What is reported -/

theorem severity_of_annotationIssue? {a : Syntax.Annotation} {issue : Issue}
    (h : annotationIssue? a = some issue) : issue.severity = .warning := by
  unfold annotationIssue? at h
  repeat' split at h
  all_goals cases h <;> rfl

/-- Reports that stop no run. -/
def OnlyWarnings (issues : List LocatedIssue) : Prop := ∀ x ∈ issues, x.1.severity = .warning

namespace OnlyWarnings

variable {xs ys : List LocatedIssue}

theorem nil : OnlyWarnings [] := fun _ h => nomatch h

theorem append (hxs : OnlyWarnings xs) (hys : OnlyWarnings ys) : OnlyWarnings (xs ++ ys) :=
  List.forall_mem_append.mpr ⟨hxs, hys⟩

theorem annotations (at_ : Location) (as : List Syntax.Annotation) :
    OnlyWarnings (annotationReports at_ as) := by
  intro x hx
  obtain ⟨issue, hissue, rfl⟩ := List.mem_map.mp hx
  obtain ⟨a, -, ha⟩ := List.mem_filterMap.mp hissue
  exact severity_of_annotationIssue? ha

theorem note {b : Body} (h : OnlyWarnings b.reports) (construct : String) (at_ : Location) :
    OnlyWarnings (b.note (.unsupportedMember construct) at_).reports :=
  h.append (List.forall_mem_singleton.mpr rfl)

theorem add {b : Body} (h : OnlyWarnings b.reports) (file owner : String) (m : Syntax.Member) :
    OnlyWarnings (b.add file owner m).reports := by
  cases m with
  | constant d => exact h
  | «attribute» d =>
      have hreports := h.append (annotations ⟨file, d.line.toNat⟩ d.annotations)
      unfold Body.add
      dsimp only
      split <;> exact hreports
  | operation d =>
      have hreports := h.append (annotations ⟨file, d.line.toNat⟩ d.annotations)
      unfold Body.add
      dsimp only
      split
      next => exact note hreports _ _
      next => split <;> exact hreports
  | constructor d =>
      unfold Body.add
      dsimp only
      split
      next => exact h.note _ _
      next => exact h
  | iterable | maplike | setlike | stringifier => exact h.note _ _

theorem ofMembers (file owner : String) (members : List Syntax.Member) :
    OnlyWarnings (Body.ofMembers file owner members).reports := by
  unfold Body.ofMembers
  suffices hfold : ∀ b : Body, OnlyWarnings b.reports →
      OnlyWarnings (members.foldl (Body.add file owner) b).reports from hfold {} nil
  induction members with
  | nil => exact fun _ h => h
  | cons m members ih => exact fun _ h => ih _ (h.add file owner m)

end OnlyWarnings

variable {settings : Settings} {file : String} {d : Definition} {r : Reading}

/-- The reports of a reading stop no run. -/
theorem onlyWarnings_reports (h : read? settings file d = some r) : OnlyWarnings r.reports := by
  cases d with
  | enumeration d =>
      obtain rfl := Option.some.inj h
      refine (OnlyWarnings.annotations _ _).append fun x hx => ?_
      obtain ⟨v, -, rfl⟩ := List.mem_map.mp hx
      rfl
  | interface d =>
      obtain rfl := Option.some.inj h
      exact (OnlyWarnings.annotations _ _).append (OnlyWarnings.ofMembers _ _ _)
  | mixin d =>
      obtain rfl := Option.some.inj h
      refine (OnlyWarnings.annotations _ _).append ?_
      have hbody := OnlyWarnings.ofMembers file d.name d.members
      split
      next => exact hbody.note _ _
      next => exact hbody
  | dictionary d | callback d =>
      obtain rfl := Option.some.inj h
      exact OnlyWarnings.annotations _ _
  | includes d | typedef d =>
      obtain rfl := Option.some.inj h
      exact .nil
  | implementation d => cases h

namespace Compilation

theorem reportAll_append (c : Compilation) (xs ys : List LocatedIssue) :
    c.reportAll (xs ++ ys) = (c.reportAll xs).reportAll ys :=
  List.foldl_append

/-- Only the log changes. -/
theorem exists_reportAll (c : Compilation) (issues : List LocatedIssue) :
    ∃ log, c.reportAll issues = { c with log } := by
  unfold reportAll
  induction issues generalizing c with
  | nil => exact ⟨c.log, rfl⟩
  | cons issue issues ih =>
    obtain ⟨log, hlog⟩ := ih (c.report issue.1 issue.2)
    exact ⟨log, hlog⟩

@[simp] theorem settings_reportAll (c : Compilation) (issues : List LocatedIssue) :
    (c.reportAll issues).settings = c.settings := by
  obtain ⟨log, hlog⟩ := c.exists_reportAll issues
  rw [hlog]

@[simp] theorem table_reportAll (c : Compilation) (issues : List LocatedIssue) :
    (c.reportAll issues).table = c.table := by
  obtain ⟨log, hlog⟩ := c.exists_reportAll issues
  rw [hlog]

@[simp] theorem fragments_reportAll (c : Compilation) (issues : List LocatedIssue) :
    (c.reportAll issues).fragments = c.fragments := by
  obtain ⟨log, hlog⟩ := c.exists_reportAll issues
  rw [hlog]

theorem errors_reportAll {issues : List LocatedIssue} (h : OnlyWarnings issues)
    (c : Compilation) : (c.reportAll issues).errors = c.errors := by
  unfold reportAll
  induction issues generalizing c with
  | nil => rfl
  | cons issue issues ih =>
    obtain ⟨hfirst, hrest⟩ := List.forall_mem_cons.mp h
    refine (ih hrest (c.report issue.1 issue.2)).trans ?_
    rw [errors_report, if_neg (by rw [hfirst]; decide), Nat.add_zero]

theorem packageOf_reportAll (c : Compilation) (issues : List LocatedIssue) (file : String) :
    (c.reportAll issues).packageOf file = c.settings.packageOf file := by
  rw [packageOf, settings_reportAll]
  rfl

end Compilation

/-- Whether the log is polled behind a definition. -/
def Syntax.Definition.isPolled : Definition → Bool
  | .includes _ => false
  | _ => true

variable {c : Compilation}

/-- A change, and then a poll. -/
theorem update_run (f : Compilation → Compilation) (c : Compilation) :
    (do modify f; checkLimit : CompileM Unit) c =
      if (f c).isOverLimit then .error .tooManyErrors (f c) else .ok () (f c) :=
  (bind_run rfl).trans (checkLimit_run (f c))

/-- To declare a definition is to act on its reading, and to poll. -/
theorem declareDefinition_run (h : read? c.settings file d = some r) :
    declareDefinition file d c =
      if d.isPolled && (r.on c).isOverLimit then .error .tooManyErrors (r.on c)
      else .ok () (r.on c) := by
  have hpolled : ∀ {f : Compilation → Compilation}, f c = r.on c →
      (do modify f; checkLimit : CompileM Unit) c =
        if true && (r.on c).isOverLimit then .error .tooManyErrors (r.on c)
        else .ok () (r.on c) := by
    intro f hf
    rw [update_run, hf, Bool.true_and]
  cases d with
  | enumeration d =>
      obtain rfl := Option.some.inj h
      refine hpolled ?_
      simp only [Compilation.declareEnumeration, Reading.on, Compilation.reportAll_append,
        Compilation.packageOf_reportAll, Compilation.settings_reportAll]
      rfl
  | interface d =>
      obtain rfl := Option.some.inj h
      refine hpolled ?_
      show c.declareInterface file d = _
      unfold Compilation.declareInterface readInterface Reading.on
      dsimp only
      rw [show c.packageOf file = c.settings.packageOf file from rfl]
      generalize (if (Compilation.interfaceOf file (c.settings.packageOf file) d).1.callback then
        callbackViolation? _ else none) = violation
      cases violation with
      | some issue => rfl
      | none => dsimp only; split <;> rfl
  | mixin d =>
      obtain rfl := Option.some.inj h
      refine hpolled ?_
      have hmembers : ∀ (b : Body) (issue : Issue) (at_ : Location),
          (if b.constructor.isSome then b.note issue at_ else b).members = b.members := by
        intro b issue at_
        split <;> rfl
      simp only [Compilation.declareMixin, Reading.on, Compilation.packageOf_reportAll, hmembers]
      split <;> rfl
  | dictionary d =>
      obtain rfl := Option.some.inj h
      refine hpolled ?_
      simp only [Compilation.declareDictionary, Reading.on, Compilation.packageOf_reportAll]
      split <;> rfl
  | includes d =>
      obtain rfl := Option.some.inj h
      rfl
  | callback d =>
      obtain rfl := Option.some.inj h
      refine hpolled ?_
      simp only [Compilation.declareCallback, Reading.on, Compilation.packageOf_reportAll]
      rfl
  | typedef d =>
      obtain rfl := Option.some.inj h
      exact hpolled rfl
  | implementation d => cases h

/-! ## What a reading does -/

/-- A refusal is an error. -/
theorem severity_of_refuse (h : read? settings file d = some r) {issue : Issue} {at_ : Location}
    (hdeed : r.deed = .refuse issue at_) : issue.severity = .error := by
  cases d with
  | interface d =>
      obtain rfl := Option.some.inj h
      unfold readInterface at hdeed
      dsimp only at hdeed
      split at hdeed
      next issue' hissue =>
        cases hdeed
        exact (Interface.isRefused_of_issue hissue).2
      next => split at hdeed <;> cases hdeed
  | mixin d | dictionary d =>
      obtain rfl := Option.some.inj h
      dsimp only at hdeed
      split at hdeed <;> cases hdeed
  | enumeration d | includes d | callback d | typedef d =>
      obtain rfl := Option.some.inj h
      cases hdeed
  | implementation d => cases h

namespace Deed

/-- Whether a deed is an error. -/
def fails (t : SymbolTable) : Deed → Bool
  | refuse .. => true
  | aside _ => false
  | enter d => (t.declaredAt? d.name).isSome

/-- The table behind a deed. -/
def tableOn (t : SymbolTable) : Deed → SymbolTable
  | enter d => if (t.declaredAt? d.name).isSome then t else t.entered d
  | _ => t

/-- The fragments behind a deed. -/
def fragmentsOn (f : Fragments) : Deed → Fragments
  | aside add => add f
  | _ => f

/-- A declaration is entered, or its name is taken. -/
theorem on_enter (c : Compilation) (d : Declaration) :
    (enter d).on c =
      match c.table.declaredAt? d.name with
      | some previous => c.report (.duplicateName d.name previous) d.source
      | none => { c with table := c.table.entered d } := by
  show c.declared d.name d.source (c.table.enter d) = _
  rw [SymbolTable.enter_eq]
  cases c.table.declaredAt? d.name <;> rfl

/-- What is behind a deed does not depend on the log. -/
theorem on_spec (deed : Deed) (c : Compilation) :
    (deed.on c).settings = c.settings ∧ (deed.on c).table = deed.tableOn c.table ∧
      (deed.on c).fragments = deed.fragmentsOn c.fragments := by
  cases deed with
  | refuse issue at_ => exact ⟨rfl, rfl, rfl⟩
  | aside add => exact ⟨rfl, rfl, rfl⟩
  | enter d =>
      rw [on_enter, tableOn]
      cases c.table.declaredAt? d.name <;> exact ⟨rfl, rfl, rfl⟩

end Deed

namespace Reading

theorem on_spec (r : Reading) (c : Compilation) :
    (r.on c).settings = c.settings ∧ (r.on c).table = r.deed.tableOn c.table ∧
      (r.on c).fragments = r.deed.fragmentsOn c.fragments := by
  have h := r.deed.on_spec (c.reportAll r.reports)
  rwa [Compilation.settings_reportAll, Compilation.table_reportAll,
    Compilation.fragments_reportAll] at h

/-- A definition is at most one error. -/
theorem errors_on (h : read? settings file d = some r) (c : Compilation) :
    (r.on c).errors = c.errors + if r.deed.fails c.table then 1 else 0 := by
  rw [on, ← Compilation.errors_reportAll (onlyWarnings_reports h) c,
    ← c.table_reportAll r.reports]
  generalize c.reportAll r.reports = c₁
  cases hdeed : r.deed with
  | refuse issue at_ =>
      exact Compilation.errors_report_of_error (severity_of_refuse h hdeed) c₁ at_
  | aside add => rfl
  | enter d =>
      rw [Deed.on_enter, Deed.fails]
      cases c₁.table.declaredAt? d.name with
      | some previous => exact Compilation.errors_report_of_error rfl c₁ d.source
      | none => rfl

end Reading

end IdlModel
