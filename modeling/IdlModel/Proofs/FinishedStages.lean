import IdlModel.Proofs.Relinking
import IdlModel.Proofs.StageRuns

/-!
# Finished stages

What linking, the promise stage and naming methods do once all of them have finished.

A table is *at rest* if its interfaces are in use, no promise is left in the entities in use,
and the methods of an interface and its ancestors have distinct names.  The stages leave such a
table if there are no errors, and each of them finds nothing to do on it.

*Linking.*  An interface in use is not due.

*Promises.*  A type without promises is rebuilt to itself, and nothing is made or recorded.

*Method names.*  A method whose name is not yet visible keeps it.  The names visible in an
interface that is done are those of its methods and of its ancestors' methods, so none of them
is met again in an interface below.
-/

namespace IdlModel

open Syntax (Document)

/-! ## Promises -/

/-- A type without promises stays, and so does the state. -/
theorem run_replacePromises_of_no_promise {t : TypeRef}
    (h : t.Everywhere fun s => s.isPromise = false) (package : String) (at_ : Location)
    (c : Compilation) : (replacePromises package at_ t).run c = (t, c) := by
  refine TypeRef.run_rebuildM_of_fixed (fun _ _ => rfl) (fun t c ht => ?_) h c
  rw [replacePromise_of_not_promise package at_ ht]
  rfl

/-- An entity without promises is settled. -/
theorem Compilation.withSettled_of_no_promise {c : Compilation} {id : EntityId} {e : Entity}
    (he : c.table.entity? id = some e)
    (h : ∀ ty ∈ e.types, ty.2.Everywhere fun s => s.isPromise = false) :
    c.withSettled id e = c := by
  have hrun : (e.mapTypesM (replacePromises e.identity.package)).run c = (e, c) :=
    Entity.run_mapTypesM_of_fixed
      (fun ty hty => run_replacePromises_of_no_promise (h ty hty) e.identity.package) c
  rw [withSettled, hrun, SymbolTable.set_self he]

/-! ## Method names -/

namespace NameCounters

/-- Methods whose names are distinct and not yet visible keep them. -/
theorem renameAll_of_fresh {names : NameCounters} {ds : List Method}
    (hnodup : (ds.map Method.name).Nodup) (hfresh : ∀ k ∈ ds.map Method.name, k ∉ names.keys) :
    (names.renameAll ds).1 = ds := by
  induction ds generalizing names with
  | nil => rfl
  | cons d ds ih =>
    obtain ⟨hd, hds⟩ := List.nodup_cons.mp hnodup
    obtain ⟨hfree, hrest⟩ := List.forall_mem_cons.mp hfresh
    have hrename : names.rename d = (d, names.put d.name 1) := by
      rw [rename, (Register.find?_eq_none_iff ..).mpr hfree]
    have hfresh' : ∀ k ∈ ds.map Method.name, k ∉ (names.put d.name 1).keys := by
      intro k hk hmem
      rcases (Register.mem_keys_put ..).mp hmem with rfl | hmem
      · exact hd hk
      · exact hrest k hk hmem
    simp only [renameAll, hrename, ih hds hfresh']

theorem renameMembers_of_fresh {names : NameCounters} {m : Members} (hnodup : m.methodNames.Nodup)
    (hfresh : ∀ k ∈ m.methodNames, k ∉ names.keys) : (names.renameMembers m).1 = m := by
  rw [Members.methodNames, List.map_append] at hnodup hfresh
  obtain ⟨hmethods, hstatics, hapart⟩ := List.nodup_append.mp hnodup
  have hfirst := renameAll_of_fresh hmethods fun k hk => hfresh k (List.mem_append_left _ hk)
  have hsecond : ((names.renameAll m.methods).2.renameAll m.staticMethods).1 = m.staticMethods := by
    refine renameAll_of_fresh hstatics fun k hk hmem => ?_
    rw [keys_renameAll, hfirst] at hmem
    rcases hmem with hmem | hmem
    · exact hfresh k (List.mem_append_right _ hk) hmem
    · exact hapart k hmem k hk rfl
  simp only [renameMembers, hfirst, hsecond]

end NameCounters

/-- The methods of an interface in use and of its ancestors have distinct names. -/
def SymbolTable.MethodsApart (t : SymbolTable) : Prop :=
  ∀ x, t.isInUse x = true → t.kind? x = some .interface →
    ((x :: t.ancestors x).flatMap t.methodNames).Nodup

/-- An interface inherits none of the names of its own methods, which are distinct. -/
theorem SymbolTable.MethodsApart.own {t : SymbolTable} (h : t.MethodsApart) {x : EntityId}
    {l : List EntityId} {d : Interface} (hused : t.isInUse x = true)
    (hd : t.entity? x = some (.interface d)) (hl : t.Lineage x l) :
    d.members.methodNames.Nodup ∧ ∀ k ∈ d.members.methodNames, k ∉ l.flatMap t.methodNames := by
  have hnames := h x hused (kind?_eq hd)
  rw [hl.ancestors_eq, List.flatMap_cons, methodNames, hd, List.nodup_append] at hnames
  obtain ⟨hown, -, hclash⟩ := hnames
  exact ⟨hown, fun k hk hmem => hclash k hk k hmem rfl⟩

namespace MethodNaming

variable {t : SymbolTable} {s : MethodNaming} {x : EntityId} {l : List EntityId}

/-- An interface whose methods have distinct names that it does not inherit stays. -/
theorem table_nameOwn_of_fresh {d : Interface} {inherited : NameCounters}
    (hd : s.table.entity? x = some (.interface d)) (hnodup : d.members.methodNames.Nodup)
    (hfresh : ∀ k ∈ d.members.methodNames, k ∉ inherited.keys) :
    (nameOwn x d inherited s).2.table = s.table := by
  simp only [nameOwn, NameCounters.renameMembers_of_fresh hnodup hfresh]
  exact (SymbolTable.modify_eq_set hd _).trans (SymbolTable.set_self hd)

/-- Methods with distinct names in a lineage keep them. -/
theorem table_nameMethods_of_apart (ht : t.Rooted) (hapart : t.MethodsApart) {fuel : Nat}
    {below : List EntityId} (hl : t.Lineage x l) (hfuel : l.length < fuel)
    (hbelow : ∀ y ∈ x :: l, y ∉ below) (h : Naming t s) (hs : s.table = t)
    (hused : t.isInUse x = true) (hkind : t.kind? x = some .interface) :
    (nameMethods fuel below x s).2.table = t := by
  induction fuel generalizing x l below s with
  | zero => exact absurd hfuel (Nat.not_lt_zero _)
  | succ fuel ih =>
    obtain ⟨d, hd⟩ := t.exists_interface x hkind
    obtain ⟨hown, hfresh⟩ := hapart.own hused hd hl
    have hparent := ht.parent_eq hused hd
    have hds : s.table.entity? x = some (.interface d) := hs ▸ hd
    have hx := hbelow x List.mem_cons_self
    cases hdone : s.done.find? x with
    | some names => rw [nameMethods, hdone, hs]
    | none =>
        cases hl with
        | root hroot =>
            rw [hroot] at hparent
            rw [nameMethods_root hdone hds hx hparent, table_nameOwn_of_fresh hds hown, hs]
            exact fun k _ => List.not_mem_nil
        | @step _ p l hstep rest =>
            rw [hstep] at hparent
            rw [nameMethods_step hdone hds hx hparent]
            obtain ⟨hpused, hpkind⟩ := ht.hasParent hused hkind hstep
            have hbelow' : ∀ y ∈ p :: l, y ∉ x :: below := by
              intro y hy hmem
              rcases List.mem_cons.mp hmem with rfl | hmem
              · exact (SymbolTable.Lineage.step hstep rest).not_mem hy
              · exact hbelow y (List.mem_cons_of_mem x hy) hmem
            have hfuel' : l.length < fuel := Nat.lt_of_succ_lt_succ hfuel
            -- The parent is named first, and its table is the same.
            have hnamed := nameMethods_spec ht rest hfuel' hbelow' h hpused hpkind
            have htable := ih rest hfuel' hbelow' h hs hpused hpkind
            obtain ⟨l', hl', -, hkeys, -⟩ := hnamed.naming.done p _ hnamed.found
            obtain rfl := rest.unique hl'
            rw [htable] at hkeys
            rw [table_nameOwn_of_fresh (htable ▸ hd) hown, htable]
            exact fun k hk hmem => hfresh k hk ((hkeys k).mp hmem)

/-- The stage leaves a table whose methods are apart. -/
theorem table_nameAll_of_apart (ht : t.Rooted) (hapart : t.MethodsApart) {ids : List EntityId}
    (hids : ∀ x ∈ ids, t.isInUse x = true ∧ t.kind? x = some .interface) (h : Naming t s)
    (hs : s.table = t) : (nameAll ids s).table = t := by
  induction ids generalizing s with
  | nil => exact hs
  | cons x ids ih =>
    obtain ⟨hfirst, hids⟩ := List.forall_mem_cons.mp hids
    obtain ⟨hused, hkind⟩ := hfirst
    obtain ⟨l, hl⟩ := ht.exists_lineage hused hkind
    have hfuel : l.length < s.table.size + 1 := by
      rw [hs]
      exact Nat.lt_succ_of_le hl.length_le
    have hbelow : ∀ y ∈ x :: l, y ∉ ([] : List EntityId) := fun _ _ => List.not_mem_nil
    have hnamed := nameMethods_spec ht hl hfuel hbelow h hused hkind
    exact ih hids hnamed.naming (table_nameMethods_of_apart ht hapart hl hfuel hbelow h hs hused hkind)

end MethodNaming

/-! ## Tables at rest -/

/-- A compilation on which the stages have nothing left to do. -/
structure Compilation.AtRest (c : Compilation) : Prop where
  clean : c.Clean
  rooted : c.table.Rooted
  interfaces : ∀ x, c.table.kind? x = some .interface → c.table.isInUse x = true
  types : ∀ x e, c.table.isInUse x = true → c.table.entity? x = some e → ∀ ty ∈ e.types,
    ty.2.Everywhere fun s => s.isPromise = false
  methods : c.table.MethodsApart

namespace Compilation.AtRest

variable {c : Compilation} (h : c.AtRest)
include h

theorem checkLimit : checkLimit c = .ok () c := by
  rw [checkLimit_run, h.clean.not_isOverLimit]
  rfl

theorem linkInterfaces : linkInterfaces c = .ok () c := by
  refine withLinker_ok.mpr ⟨{ compilation := c }, ?_, rfl⟩
  rw [Linker.linkRoots_run]
  refine Linker.forM_link_of_not_due (fun x hx => ?_) fun _ => h.clean.not_isOverLimit
  have hused := h.interfaces x ((c.table.kind?_eq_some x).mpr ((c.table.mem_idsOf x).mp hx))
  rw [← Bool.not_eq_true, Linker.isDue_iff]
  rintro ⟨-, -, hfree⟩
  cases hfree.symm.trans hused

theorem settlePromises {x : EntityId} (hused : c.table.isInUse x = true) :
    settlePromises x c = .ok () c := by
  rw [settlePromises_run]
  cases he : c.table.entity? x with
  | none => exact h.checkLimit
  | some e =>
      dsimp only
      rw [Compilation.withSettled_of_no_promise he (h.types x e hused he)]
      exact h.checkLimit

theorem instantiatePromises : instantiatePromises c = .ok () c :=
  forM_of_fixed fun x hx => h.settlePromises ((c.table.mem_idsInUse x).mp hx)

theorem resolveMethodNames : resolveMethodNames c = .ok () c := by
  obtain ⟨named, hrun⟩ := resolveMethodNames_finishes h.clean
  have hids : ∀ x ∈ (c.table.idsOf .interface).filter c.table.isInUse,
      c.table.isInUse x = true ∧ c.table.kind? x = some .interface := by
    intro x hx
    rwa [List.mem_filter, SymbolTable.mem_idsOf, ← SymbolTable.kind?_eq_some, and_comm] at hx
  have htable := MethodNaming.table_nameAll_of_apart h.rooted h.methods hids
    (MethodNaming.Naming.start c.table) rfl
  rw [hrun, resolveMethodNames_ok hrun, htable]

end Compilation.AtRest

/-! ## Behind the stages -/

/-- The first five stages. -/
def nameDocuments (documents : List Document) : CompileM Unit :=
  [Stage.extract, .merge, .link, .promise, .overrides].forM fun stage =>
    runStage (stage.action documents []) stage

variable {documents documents' : List Document} {scripts : List Script.Source} {settings : Settings}
  {c : Compilation}

/-- The stages leave a compilation at rest. -/
theorem atRest_of_nameDocuments (h : nameDocuments documents { settings } = .ok () c) :
    c.AtRest := by
  obtain ⟨extracted, hextract, h⟩ := forM_cons_ok.mp h
  obtain ⟨merged, hmerge, h⟩ := forM_cons_ok.mp h
  obtain ⟨linked, hlink, h⟩ := forM_cons_ok.mp h
  obtain ⟨settled, hpromise, h⟩ := forM_cons_ok.mp h
  obtain ⟨_, hname, h⟩ := forM_cons_ok.mp h
  obtain ⟨_, rfl⟩ := pure_ok.mp h
  obtain ⟨hresolved, -⟩ := resolved_of_link hextract hmerge hlink
  obtain ⟨es, hprogress⟩ := progress_of_promise hresolved hpromise
  obtain ⟨hrun, hclean⟩ := runStage_ok.mp hname
  have hrooted := hprogress.rooted hresolved
  have hnamed := hrooted.methodsNamed hrun
  have hclosed := (hprogress.closed hresolved).renamed hnamed.renamed
  refine ⟨hclean, hrooted.renamed hnamed.renamed, hclosed.interfaces, ?_, fun x hused hkind => ?_⟩
  · exact fun x e hused he ty hty => (hclosed.types x e hused he ty hty).2
  · rw [hnamed.renamed.marks] at hused
    rw [hnamed.renamed.kind?_eq] at hkind
    exact hnamed.distinct x hused hkind

/-- Once the stages have finished without errors, linking, the promise stage and naming methods
can be repeated in any order and any number of times: they finish and change nothing. -/
theorem finished_stages_change_nothing (h : nameDocuments documents { settings } = .ok () c)
    {again : List Stage} (hagain : ∀ stage ∈ again, stage ∈ [Stage.link, .promise, .overrides]) :
    again.forM (fun stage => stage.action documents' scripts) c = .ok () c := by
  have hrest := atRest_of_nameDocuments h
  refine forM_of_fixed fun stage hmem => ?_
  have hstage := hagain stage hmem
  simp only [List.mem_cons, List.not_mem_nil, or_false] at hstage
  rcases hstage with rfl | rfl | rfl
  · exact hrest.linkInterfaces
  · exact hrest.instantiatePromises
  · exact hrest.resolveMethodNames

/-- The definitions `interface Source { Promise<DOMString> read(); void close(); };` and
`interface File : Source { Promise<long> read(); void close(); };`. -/
def files : Document :=
  { name := "files.idl"
    definitions :=
      [.interface
        { name := "Source"
          members :=
            [.operation { name := some "read", returnType := .generic "Promise" [.named "DOMString"] },
            .operation { name := some "close", returnType := .named "void" }] },
      .interface
        { name := "File"
          inherits := some "Source"
          members :=
            [.operation { name := some "read", returnType := .generic "Promise" [.named "long"] },
            .operation { name := some "close", returnType := .named "void" }] }] }

theorem finished_stages_change_nothing_files :
    ∃ c, nameDocuments [files] { settings := {} } = .ok () c ∧
      [Stage.overrides, .link, .promise, .link].forM (fun stage => stage.action [] []) c =
        .ok () c := by
  have hfinishes : (answer? (nameDocuments [files] { settings := {} })).map (fun _ => true) =
      some true := by decide +kernel
  obtain ⟨⟨⟩, c, hrun, _⟩ := ok_of_answer? hfinishes
  exact ⟨c, hrun, finished_stages_change_nothing hrun (by decide)⟩

end IdlModel
