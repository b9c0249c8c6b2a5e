import IdlModel.Proofs.ScriptRuns
import IdlModel.Proofs.SettledTables

/-!
# The stages in order

What the tables between the stages look like if no stage leaves an error behind.

1. Behind linking the table is resolved.
2. Behind the promise stage the promises of all entities in use are settled.
3. Naming methods makes a renaming in which the names of methods do not clash.
4. The scripts make a renaming.
-/

namespace IdlModel

open Syntax (Document)

variable {documents : List Document} {scripts : List Script.Source} {settings : Settings}
  {extracted merged linked settled named finished : Compilation}

/-- The first three stages. -/
def linkDocuments (documents : List Document) : CompileM Unit :=
  [Stage.extract, .merge, .link].forM fun stage => runStage (stage.action documents []) stage

/-- The third stage comes behind the first two. -/
theorem linkDocuments_ok {c : Compilation} :
    linkDocuments documents c = .ok () linked ↔ ∃ merged, mergeDocuments documents c = .ok () merged ∧
      runStage linkInterfaces .link merged = .ok () linked := by
  constructor
  · intro h
    obtain ⟨extracted, hextract, h⟩ := forM_cons_ok.mp h
    obtain ⟨merged, hmerge, h⟩ := forM_cons_ok.mp h
    obtain ⟨_, hlink, h⟩ := forM_cons_ok.mp h
    obtain ⟨_, rfl⟩ := pure_ok.mp h
    refine ⟨merged, forM_cons_ok.mpr ⟨extracted, hextract, ?_⟩, hlink⟩
    exact forM_cons_ok.mpr ⟨merged, hmerge, rfl⟩
  · rintro ⟨merged, h, hlink⟩
    obtain ⟨extracted, hextract, h⟩ := forM_cons_ok.mp h
    obtain ⟨_, hmerge, h⟩ := forM_cons_ok.mp h
    obtain ⟨_, rfl⟩ := pure_ok.mp h
    refine forM_cons_ok.mpr ⟨extracted, hextract, forM_cons_ok.mpr ⟨_, hmerge, ?_⟩⟩
    exact forM_cons_ok.mpr ⟨linked, hlink, rfl⟩

/-- The table that the first three stages make of documents. -/
theorem resolved_of_link
    (hextract : runStage (Stage.extract.action documents scripts) .extract { settings } =
      .ok () extracted)
    (hmerge : runStage (Stage.merge.action documents scripts) .merge extracted = .ok () merged)
    (hlink : runStage (Stage.link.action documents scripts) .link merged = .ok () linked) :
    linked.table.Resolved ∧ linked.Clean := by
  have hdeclared := declared_of_merge hextract hmerge
  obtain ⟨hrun, hclean⟩ := runStage_ok.mp hlink
  obtain ⟨l, rfl, hfinished⟩ := linkInterfaces_spec hdeclared hrun hclean
  exact ⟨hfinished.resolved hdeclared, hclean⟩

theorem linkDocuments_resolved (h : linkDocuments documents { settings } = .ok () linked) :
    linked.table.Resolved ∧ linked.Clean := by
  obtain ⟨_, hextract, h⟩ := forM_cons_ok.mp h
  obtain ⟨_, hmerge, h⟩ := forM_cons_ok.mp h
  obtain ⟨_, hlink, h⟩ := forM_cons_ok.mp h
  obtain ⟨_, rfl⟩ := pure_ok.mp h
  exact resolved_of_link hextract hmerge hlink

/-- What the promise stage makes of a resolved table. -/
theorem progress_of_promise (hlinked : linked.table.Resolved)
    (hpromise : runStage instantiatePromises .promise linked = .ok () settled) :
    ∃ es, Progress linked.table [] es settled.table := by
  obtain ⟨hrun, hclean⟩ := runStage_ok.mp hpromise
  exact instantiatePromises_spec hlinked hrun hclean

/-- The tables of a compilation that finishes. -/
structure StageTables (linked settled named finished : Compilation) : Prop where
  resolved : linked.table.Resolved
  progress : ∃ es, Progress linked.table [] es settled.table
  methods : settled.table.MethodsNamed named.table
  renamed : named.table.Renamed finished.table

theorem CompileRun.stageTables
    (h : CompileRun documents scripts { settings } extracted merged linked settled named finished) :
    StageTables linked settled named finished := by
  obtain ⟨hlinked, _⟩ := resolved_of_link h.extract h.merge h.link
  obtain ⟨es, hprogress⟩ := progress_of_promise hlinked h.promise
  refine ⟨hlinked, ⟨es, hprogress⟩, ?_, ?_⟩
  · exact (hprogress.rooted hlinked).methodsNamed (runStage_ok.mp h.overrides).1
  · exact runScripts_renamed (runStage_ok.mp h.transform).1

namespace StageTables

variable (h : StageTables linked settled named finished)

include h

/-- From the promise stage on entities only get other names. -/
theorem settled_renamed : settled.table.Renamed finished.table := h.methods.renamed.trans h.renamed

theorem closed : finished.table.Closed := by
  obtain ⟨es, hprogress⟩ := h.progress
  exact (hprogress.closed h.resolved).renamed h.settled_renamed

end StageTables

/-! ## Names of methods -/

/-- Naming methods finishes without errors before it. -/
theorem resolveMethodNames_finishes {c : Compilation} (h : c.Clean) :
    ∃ c', resolveMethodNames c = .ok () c' := by
  let named : Compilation := { c with
    table := (MethodNaming.nameAll ((c.table.idsOf .interface).filter c.table.isInUse)
      { table := c.table }).table }
  have hlimit : named.isOverLimit = false := Compilation.Clean.not_isOverLimit h
  refine ⟨named, bind_ok.mpr ⟨⟨⟩, named, rfl, bind_ok.mpr ⟨named, named, rfl, ?_⟩⟩⟩
  rw [hlimit]
  rfl

/-- Behind linking, with or without promises in place, the stage ends with methods
of distinct names in every interface in use and its ancestors, and nothing but names
has changed. -/
theorem linked_methodNames_distinct {c : Compilation}
    (h : linkDocuments documents { settings } = .ok () linked)
    (hc : c = linked ∨ runStage instantiatePromises .promise linked = .ok () c) :
    ∃ named, resolveMethodNames c = .ok () named ∧ c.table.Renamed named.table ∧
      ∀ x, named.table.isInUse x = true → named.table.kind? x = some .interface →
        ((x :: named.table.ancestors x).flatMap named.table.methodNames).Nodup := by
  obtain ⟨hresolved, hclean⟩ := linkDocuments_resolved h
  have hready : c.table.Rooted ∧ c.Clean := by
    rcases hc with rfl | hpromise
    · exact ⟨hresolved.rooted, hclean⟩
    · obtain ⟨es, hprogress⟩ := progress_of_promise hresolved hpromise
      exact ⟨hprogress.rooted hresolved, (runStage_ok.mp hpromise).2⟩
  obtain ⟨named, hrun⟩ := resolveMethodNames_finishes hready.2
  have hnamed := hready.1.methodsNamed hrun
  refine ⟨named, hrun, hnamed.renamed, fun x hused hkind => hnamed.distinct x ?_ ?_⟩
  · rwa [← hnamed.renamed.marks]
  · rwa [← hnamed.renamed.kind?_eq]

/-- The definitions `interface Base { void f2(); };` and
`interface Derived : Base { void f(); void f(long x); };`. -/
def overloads : Document :=
  { name := "overloads.idl"
    definitions :=
      [.interface
        { name := "Base"
          members := [.operation { name := some "f2", returnType := .named "void" }] },
      .interface
        { name := "Derived"
          inherits := some "Base"
          members :=
            [.operation { name := some "f", returnType := .named "void" },
            .operation
              { name := some "f"
                returnType := .named "void"
                args := [{ name := "x", type := .named "long" }] }] }] }

theorem linked_methodNames_distinct_overloads :
    ∃ linked named, linkDocuments [overloads] { settings := {} } = .ok () linked ∧
      resolveMethodNames linked = .ok () named ∧ linked.table.Renamed named.table ∧
      ∀ x, named.table.isInUse x = true → named.table.kind? x = some .interface →
        ((x :: named.table.ancestors x).flatMap named.table.methodNames).Nodup := by
  have hfinishes : (answer? (linkDocuments [overloads] { settings := {} })).map (fun _ => true) =
      some true := by decide +kernel
  obtain ⟨⟨⟩, linked, hrun, _⟩ := ok_of_answer? hfinishes
  obtain ⟨named, hnamed⟩ := linked_methodNames_distinct hrun (.inl rfl)
  exact ⟨linked, named, hrun, hnamed⟩

end IdlModel
