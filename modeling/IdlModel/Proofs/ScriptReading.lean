import IdlModel.Proofs.Endings
import IdlModel.Proofs.ScriptLines
import IdlModel.Script.Run

/-!
# Reading scripts

What a script and its reports are made of.

*Sections.*  The lines of a script are a preamble without type headers, and then sections, each a
type header with the lines up to the next one.  A section gives one block.

*Outcomes.*  A line that is no header has one outcome: an action of the block that is open there,
a selection outside of the blocks, or a report.  A file header has none.  Its package is that of
the sections behind it, up to the next file header.
-/

namespace IdlModel.Script

/-! ## Outcomes -/

/-- The package of a file header. -/
def Line.package? (l : Line) : Option String :=
  match l.tokens with
  | .fileHeader package :: _ => some package
  | _ => none

/-- The name of a type header. -/
def Line.typeName? (l : Line) : Option String :=
  match l.tokens with
  | .typeHeader name :: _ => some name
  | _ => none

/-- A line that is no header. -/
def Line.isStatement (l : Line) : Bool := l.package?.isNone && l.typeName?.isNone

/-- The package of the last file header among lines. -/
def lastPackage (lines : List Line) : Option String := (lines.filterMap Line.package?).getLast?

/-- The package of the last file header before the line with a number. -/
def packageBefore (lines : List Line) (number : Nat) : Option String :=
  lastPackage (lines.filter (·.number < number))

/-- What becomes of a line that is no header. -/
inductive Outcome where
  /-- An action of the open block. -/
  | action (a : Action)
  /-- A selection outside of the blocks. -/
  | global (s : Selection) (line : Nat)
  /-- A report. -/
  | report (issue : Issue) (line : Nat)

namespace Outcome

/-- The action. -/
@[simp] def action? : Outcome → Option Action
  | action a => some a
  | _ => none

/-- The item outside of the blocks. -/
@[simp] def item? : Outcome → Option Item
  | global s line => some (.global s line)
  | _ => none

/-- The report. -/
@[simp] def report? : Outcome → Option (Issue × Nat)
  | report issue line => some (issue, line)
  | _ => none

end Outcome

/-- The outcome of a line that is no header, in a block or before the first one. -/
def outcome (inBlock : Bool) (l : Line) : Outcome :=
  match readEffect l.tokens, inBlock with
  | .error issue, _ => .report issue l.number
  | .ok effect, true => .action ⟨effect, l.number⟩
  | .ok (.select s), false => .global s l.number
  | .ok (.edit e), false => .report (.statement (.outsideBlock e.describe)) l.number

/-- The outcomes of the lines that are no headers. -/
def outcomes (inBlock : Bool) (lines : List Line) : List Outcome :=
  (lines.filter Line.isStatement).map (outcome inBlock)

theorem lastPackage_append (lines later : List Line) :
    lastPackage (lines ++ later) = (lastPackage later).or (lastPackage lines) := by
  rw [lastPackage, List.filterMap_append, List.getLast?_append]
  rfl

theorem lastPackage_cons (l : Line) (lines : List Line) :
    lastPackage (l :: lines) = (lastPackage lines).or l.package? := by
  rw [← List.singleton_append, lastPackage_append]
  cases h : l.package? <;> simp [lastPackage, h]

theorem outcomes_cons_header {inBlock : Bool} {l : Line} {lines : List Line}
    (h : l.isStatement = false) : outcomes inBlock (l :: lines) = outcomes inBlock lines := by
  rw [outcomes, List.filter_cons_of_neg (by simp [h])]
  rfl

theorem outcomes_cons_statement {inBlock : Bool} {l : Line} {lines : List Line}
    (h : l.isStatement = true) :
    outcomes inBlock (l :: lines) = outcome inBlock l :: outcomes inBlock lines := by
  rw [outcomes, List.filter_cons_of_pos h]
  rfl

/-! ## Sections -/

/-- A type header and the lines up to the next one. -/
structure Section where
  /-- The line of the header. -/
  header : Line
  /-- The name in the header. -/
  name : String
  /-- The lines behind it. -/
  body : List Line

/-- The lines of a section. -/
def Section.lines (s : Section) : List Line := s.header :: s.body

/-- The block of a section for a package. -/
def Section.block (package : Option String) (s : Section) : Block where
  name := s.name
  line := s.header.number
  actions :=
    (package.map fun package =>
      (⟨.edit (.setProperty "package" package), s.header.number⟩ : Action)).toList ++
      (outcomes true s.body).filterMap Outcome.action?

/-- Lines in sections. -/
structure InSections (lines preamble : List Line) (sections : List Section) : Prop where
  lines_eq : lines = preamble ++ sections.flatMap Section.lines
  preamble : ∀ l ∈ preamble, l.typeName? = none
  header : ∀ s ∈ sections, s.header.typeName? = some s.name
  body : ∀ s ∈ sections, ∀ l ∈ s.body, l.typeName? = none

theorem package?_of_typeName {l : Line} {name : String} (h : l.typeName? = some name) :
    l.package? = none := by
  unfold Line.typeName? at h
  split at h
  next heq => rw [Line.package?, heq]
  next => cases h

/-- In a block there are no selections outside of the blocks. -/
theorem item?_outcome (l : Line) : (outcome true l).item? = none := by
  unfold outcome
  split <;> first | rfl | contradiction

/-- Before the first block there are no actions. -/
theorem action?_outcome (l : Line) : (outcome false l).action? = none := by
  unfold outcome
  split <;> first | rfl | contradiction

theorem filterMap_item?_outcomes (lines : List Line) :
    (outcomes true lines).filterMap Outcome.item? = [] := by
  refine List.filterMap_eq_nil_iff.mpr fun o ho => ?_
  obtain ⟨l, -, rfl⟩ := List.mem_map.mp ho
  exact item?_outcome l

theorem packageBefore_append {earlier later : List Line} {l : Line}
    (h : (earlier ++ l :: later).Pairwise (·.number < ·.number)) :
    packageBefore (earlier ++ l :: later) l.number = lastPackage earlier := by
  obtain ⟨-, hlater, hearlier⟩ := List.pairwise_append.mp h
  have hnone : (l :: later).filter (·.number < l.number) = [] := by
    refine List.filter_eq_nil_iff.mpr fun l' hl' => ?_
    rw [decide_eq_true_eq, Nat.not_lt]
    obtain rfl | hl' := List.mem_cons.mp hl'
    · exact Nat.le_refl _
    · exact Nat.le_of_lt (List.rel_of_pairwise_cons hlater hl')
  have hall : earlier.filter (·.number < l.number) = earlier :=
    List.filter_eq_self.mpr fun l' hl' => decide_eq_true (hearlier l' hl' l List.mem_cons_self)
  rw [packageBefore, List.filter_append, hall, hnone, List.append_nil]

/-- Lines can be put in sections. -/
theorem exists_inSections (lines : List Line) :
    ∃ preamble sections, InSections lines preamble sections := by
  induction lines with
  | nil => exact ⟨[], [], rfl, nofun, nofun, nofun⟩
  | cons l rest ih =>
      obtain ⟨preamble, sections, rfl, hpreamble, hheader, hbody⟩ := ih
      cases hname : l.typeName? with
      | none =>
          exact ⟨l :: preamble, sections, rfl, List.forall_mem_cons.mpr ⟨hname, hpreamble⟩, hheader,
            hbody⟩
      | some name =>
          exact ⟨[], ⟨l, name, preamble⟩ :: sections, rfl, nofun,
            List.forall_mem_cons.mpr ⟨hname, hheader⟩, List.forall_mem_cons.mpr ⟨hpreamble, hbody⟩⟩

/-! ## Reading lines -/

namespace Draft

variable {d : Draft} {l : Line}

theorem addLine_of_package {package : String} (h : l.package? = some package) :
    d.addLine l = { d with package := some package } := by
  unfold Line.package? at h
  split at h
  next heq =>
    cases h
    rw [addLine, heq]
  next => cases h

theorem addLine_of_typeName {name : String} (h : l.typeName? = some name) :
    d.addLine l = d.openBlock name l.number := by
  unfold Line.typeName? at h
  split at h
  next heq =>
    cases h
    rw [addLine, heq]
  next => cases h

/-- A draft with the outcomes of lines. -/
def addOutcomes (d : Draft) (os : List Outcome) : Draft :=
  { d with
    items := d.items ++ os.filterMap Outcome.item?
    block := d.block.map fun b => { b with actions := b.actions ++ os.filterMap Outcome.action? }
    reports := d.reports ++ os.filterMap Outcome.report? }

/-- A line that is no header adds its outcome to a draft. -/
theorem addLine_of_isStatement (h : l.isStatement = true) :
    d.addLine l = d.addOutcomes [outcome d.block.isSome l] := by
  obtain ⟨hpackage, hname⟩ := (Bool.and_eq_true _ _).mp h
  unfold addLine
  split
  next heq => simp [Line.package?, heq] at hpackage
  next heq => simp [Line.typeName?, heq] at hname
  next =>
    obtain ⟨package, items, block, reports⟩ := d
    match heffect : readEffect l.tokens, block with
    | .error issue, none => simp [outcome, heffect, addOutcomes, report]
    | .error issue, some b => simp [outcome, heffect, addOutcomes, report, List.filterMap_cons]
    | .ok effect, some b => simp [outcome, heffect, addOutcomes, push]
    | .ok (.select selection), none => simp [outcome, heffect, addOutcomes, push]
    | .ok (.edit edit), none => simp [outcome, heffect, addOutcomes, push, report]

theorem addOutcomes_nil : d.addOutcomes [] = d := by
  obtain ⟨package, items, block, reports⟩ := d
  cases block <;> simp [addOutcomes]

theorem addOutcomes_addOutcomes (os later : List Outcome) :
    (d.addOutcomes os).addOutcomes later = d.addOutcomes (os ++ later) := by
  obtain ⟨package, items, block, reports⟩ := d
  cases block <;> simp [addOutcomes]

theorem isSome_block_addOutcomes (os : List Outcome) :
    (d.addOutcomes os).block.isSome = d.block.isSome := by
  simp [addOutcomes]

/-- Lines without a type header. -/
theorem foldl_addLine_plain {lines : List Line} (h : ∀ l ∈ lines, l.typeName? = none) :
    lines.foldl addLine d =
      { d.addOutcomes (outcomes d.block.isSome lines) with
        package := (lastPackage lines).or d.package } := by
  induction lines generalizing d with
  | nil => simp [outcomes, lastPackage, addOutcomes_nil]
  | cons l rest ih =>
      obtain ⟨hl, hrest⟩ := List.forall_mem_cons.mp h
      rw [List.foldl_cons, ih hrest]
      cases hpackage : l.package? with
      | some package =>
          have hstatement : l.isStatement = false := by simp [Line.isStatement, hpackage]
          rw [addLine_of_package hpackage, lastPackage_cons, hpackage, Option.or_assoc,
            Option.some_or, outcomes_cons_header hstatement]
          rfl
      | none =>
          have hstatement : l.isStatement = true := by simp [Line.isStatement, hpackage, hl]
          rw [addLine_of_isStatement hstatement, lastPackage_cons, hpackage, Option.or_none,
            outcomes_cons_statement hstatement, isSome_block_addOutcomes, addOutcomes_addOutcomes]
          rfl

/-- The body of a section, behind its header: the section is one item. -/
theorem foldl_addLine_section {s : Section} (hheader : s.header.typeName? = some s.name)
    (hbody : ∀ l ∈ s.body, l.typeName? = none) :
    (s.lines.foldl addLine d).package = (lastPackage s.body).or d.package ∧
      (s.lines.foldl addLine d).allItems =
        d.allItems ++ [.block (s.block d.package)] ∧
      (s.lines.foldl addLine d).reports =
        d.reports ++ (outcomes true s.body).filterMap Outcome.report? := by
  rw [Section.lines, List.foldl_cons, addLine_of_typeName hheader, foldl_addLine_plain hbody]
  refine ⟨rfl, ?_, rfl⟩
  simp [allItems, openBlock, addOutcomes, filterMap_item?_outcomes, Section.block]

/-- Sections, behind lines with lower numbers. -/
theorem foldl_addLine_sections {earlier : List Line} {sections : List Section}
    (hheader : ∀ s ∈ sections, s.header.typeName? = some s.name)
    (hbody : ∀ s ∈ sections, ∀ l ∈ s.body, l.typeName? = none)
    (hnumbers : (earlier ++ sections.flatMap Section.lines).Pairwise (·.number < ·.number))
    (hpackage : d.package = lastPackage earlier) :
    ((sections.flatMap Section.lines).foldl addLine d).allItems =
        d.allItems ++ sections.map (fun s => .block (s.block
          (packageBefore (earlier ++ sections.flatMap Section.lines) s.header.number))) ∧
      ((sections.flatMap Section.lines).foldl addLine d).reports =
        d.reports ++
          sections.flatMap fun s => (outcomes true s.body).filterMap Outcome.report? := by
  induction sections generalizing d earlier with
  | nil => simp
  | cons s rest ih =>
      obtain ⟨hs, hheader⟩ := List.forall_mem_cons.mp hheader
      obtain ⟨hsbody, hbody⟩ := List.forall_mem_cons.mp hbody
      obtain ⟨hpackage', hitems, hreports⟩ := foldl_addLine_section (d := d) hs hsbody
      rw [List.flatMap_cons, ← List.append_assoc] at hnumbers ⊢
      have hlast : (s.lines.foldl addLine d).package = lastPackage (earlier ++ s.lines) := by
        rw [hpackage', lastPackage_append, Section.lines, lastPackage_cons,
          package?_of_typeName hs, Option.or_none, hpackage]
      obtain ⟨hallItems, hallReports⟩ := ih hheader hbody hnumbers hlast
      have hbefore :
          packageBefore (earlier ++ s.lines ++ rest.flatMap Section.lines) s.header.number =
            d.package := by
        rw [List.append_assoc, Section.lines, List.cons_append] at hnumbers ⊢
        rw [packageBefore_append hnumbers, hpackage]
      rw [List.foldl_append, hallItems, hallReports, hitems, hreports, List.map_cons, hbefore,
        List.flatMap_cons]
      exact ⟨List.append_assoc _ _ _, List.append_assoc _ _ _⟩

end Draft

/-! ## Reading scripts -/

/-- The items that lines in sections give: the selections of the preamble, and then a block for
each section. -/
def itemsOf (lines preamble : List Line) (sections : List Section) : List Item :=
  (outcomes false preamble).filterMap Outcome.item? ++
    sections.map fun s => .block (s.block (packageBefore lines s.header.number))

/-- The reports that lines in sections give, in the order of the lines. -/
def reportsOf (preamble : List Line) (sections : List Section) : List (Issue × Nat) :=
  (outcomes false preamble).filterMap Outcome.report? ++
    sections.flatMap fun s => (outcomes true s.body).filterMap Outcome.report?

/-- Reading lines gives the items and the reports of their sections. -/
theorem ofLines_of_inSections {lines preamble : List Line} {sections : List Section}
    (h : InSections lines preamble sections)
    (hnumbers : lines.Pairwise (·.number < ·.number)) :
    (Draft.ofLines lines).allItems = itemsOf lines preamble sections ∧
      (Draft.ofLines lines).reports = reportsOf preamble sections := by
  obtain ⟨rfl, hpreamble, hheader, hbody⟩ := h
  have hfirst := Draft.foldl_addLine_plain (d := {}) hpreamble
  have hpackage : (preamble.foldl Draft.addLine {}).package = lastPackage preamble := by
    rw [hfirst]
    exact Option.or_none
  obtain ⟨hitems, hreports⟩ := Draft.foldl_addLine_sections hheader hbody hnumbers hpackage
  rw [Draft.ofLines, List.foldl_append, hitems, hreports, hfirst]
  constructor
  · simp [itemsOf, Draft.allItems, Draft.addOutcomes]
  · simp [reportsOf, Draft.addOutcomes]

/-- Reports leave the table alone, and the last one is the last entry of the log. -/
theorem foldl_report (file : String) (reports : List (Issue × Nat)) (issue : Issue) (line : Nat)
    (c : Compilation) :
    let ended := (reports ++ [(issue, line)]).foldl (fun c r => c.report r.1 ⟨file, r.2⟩) c
    ended.table = c.table ∧
      ended.log.entries.back? = some { issue, location := some ⟨file, line⟩ } := by
  intro ended
  have htable : (reports.foldl (fun c r => c.report r.1 ⟨file, r.2⟩) c).table = c.table := by
    induction reports generalizing c with
    | nil => rfl
    | cons r rest ih => exact ih _
  rw [show ended = _ from List.foldl_append]
  exact ⟨htable, Array.back?_push⟩

/-- A source that is no script only reports. -/
theorem endState_run_of_none {source : Source} {reports : List (Issue × Nat)}
    (h : read source = (none, reports)) (c : Compilation) :
    endState (source.run c) = reports.foldl (fun c r => c.report r.1 ⟨source.file, r.2⟩) c := by
  unfold Source.run
  rw [h]
  exact endState_checkLimit _

/-- Reading accounts for every line of a script.  The lines are a preamble and sections.  A section
gives one block, with the package of the last file header before it.  A line that is no header
has one outcome: in the preamble a selection outside of the blocks or a report, in a section an
action of its block or a report.  There is nothing else in the script and in the reports.  If the
text cannot be cut into tokens, there is no script, the last report is about that, and the run
changes no entity. -/
theorem read_accounts (source : Source) :
    ∃ preamble sections, InSections (Lexed.ofText source.text).lines preamble sections ∧
      (∀ o ∈ outcomes false preamble, o.action? = none) ∧
      (∀ s ∈ sections, ∀ o ∈ outcomes true s.body, o.item? = none) ∧
      ((Lexed.ofText source.text).problem? = none →
        read source =
          (some ⟨source.file, itemsOf (Lexed.ofText source.text).lines preamble sections⟩,
            reportsOf preamble sections)) ∧
      ∀ problem line, (Lexed.ofText source.text).problem? = some (problem, line) →
        read source = (none, reportsOf preamble sections ++ [(.lexical problem, line)]) ∧
        ∀ c, (endState (source.run c)).table = c.table ∧
          (endState (source.run c)).log.entries.back? =
            some { issue := .lexical problem, location := some ⟨source.file, line⟩ } := by
  obtain ⟨preamble, sections, h⟩ := exists_inSections (Lexed.ofText source.text).lines
  obtain ⟨hitems, hreports⟩ := ofLines_of_inSections h Lexed.pairwise_ofLines
  refine ⟨preamble, sections, h, ?_, ?_, ?_, ?_⟩
  · intro o ho
    obtain ⟨l, -, rfl⟩ := List.mem_map.mp ho
    exact action?_outcome l
  · intro s _ o ho
    obtain ⟨l, -, rfl⟩ := List.mem_map.mp ho
    exact item?_outcome l
  · intro hproblem
    simp only [read, hproblem, hitems, hreports]
  · intro problem line hproblem
    have hread :
        read source = (none, reportsOf preamble sections ++ [(.lexical problem, line)]) := by
      simp only [read, hproblem, hreports]
    refine ⟨hread, fun c => ?_⟩
    rw [endState_run_of_none hread]
    exact foldl_report source.file _ _ line c

end IdlModel.Script
