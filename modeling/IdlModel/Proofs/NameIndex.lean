import IdlModel.Proofs.DeclaredNames
import IdlModel.Proofs.Outcomes
import IdlModel.Proofs.Relinking

/-!
# The index of names

What names stand for behind any calls of stages, in any order, whether they finish or stop.

*Declaring.*  The first stage enters symbols under free names, or reports that a name is taken.
It is made of the steps of `Declares`.

*Everything else.*  The other stages declare nothing and rename nothing.  For each of them this
is a property of its steps: of those of the linker (`Linker.Tracks`), of those that replace
promises (`Replaces`), of the changes that fold fragments into their bases, and of what a script
presents (`Edits`).

So each call keeps the table indexed, and *extends* what names stand for.
-/

namespace IdlModel

open Syntax (Document)

open SymbolTable

namespace Compilation

/-- Nothing is declared in a compilation and nothing gets another name. -/
def SameNames (c c' : Compilation) : Prop := c.table.SameNames c'.table

/-- A table that is indexed stays so and is extended. -/
def Evolves (c c' : Compilation) : Prop :=
  c.table.Indexed → c'.table.Indexed ∧ c.table.Extends c'.table

theorem SameNames.refl (c : Compilation) : c.SameNames c := SymbolTable.SameNames.refl c.table

theorem SameNames.trans ⦃c c' c'' : Compilation⦄ (h : c.SameNames c') (h' : c'.SameNames c'') :
    c.SameNames c'' := SymbolTable.SameNames.trans h h'

theorem SameNames.evolves {c c' : Compilation} (h : c.SameNames c') : c.Evolves c' :=
  fun hc => ⟨SymbolTable.SameNames.indexed h hc, SymbolTable.SameNames.extends h⟩

theorem Evolves.refl (c : Compilation) : c.Evolves c := (SameNames.refl c).evolves

theorem Evolves.trans ⦃c c' c'' : Compilation⦄ (h : c.Evolves c') (h' : c'.Evolves c'') :
    c.Evolves c'' := fun hc => by
  obtain ⟨hindexed, hextends⟩ := h hc
  obtain ⟨hindexed', hextends'⟩ := h' hindexed
  exact ⟨hindexed', hextends.trans hextends'⟩

/-- Only the table matters. -/
theorem SameNames.of_table {c c' : Compilation} (h : c'.table = c.table) : c.SameNames c' := by
  rw [SameNames, h]
  exact .refl c.table

end Compilation

open Compilation

/-! ## Declaring -/

/-- What is entered under a free name only extends a table. -/
theorem SymbolTable.Entered.evolves {c : Compilation} {t : SymbolTable}
    (h : c.table.Indexed → ∃ name symbol, c.table.Entered name symbol t) :
    c.Evolves { c with table := t } := fun hc => by
  obtain ⟨_, _, hentered⟩ := h hc
  exact ⟨hentered.indexed hc, hentered.extends⟩

/-- Whatever is declared, the table stays indexed and is extended. -/
theorem declares_evolves : Declares Evolves where
  refl := .refl
  trans := .trans
  report c issue at_ := (Compilation.SameNames.of_table (c.table_report issue at_)).evolves
  aside c _ := .refl c
  entity c e t he hinsert := Entered.evolves fun hc => by
    have hname : e.declaredName? = some e.key := by rw [Entity.declaredName?, he]
    exact ⟨_, _, hc.insert hname hinsert⟩
  mixin c d t hinsert := Entered.evolves fun hc => ⟨_, _, hc.insertMixin hinsert⟩
  typedef c d t hinsert := Entered.evolves fun hc => ⟨_, _, hc.insertTypedef hinsert⟩

/-! ## Merging -/

theorem mergeFound_sameNames {α : Type} (found : Except Issue α) (source : Location)
    {change : α → SymbolTable → SymbolTable}
    (h : ∀ (x : α) (t : SymbolTable), t.SameNames (change x t)) :
    EndsAlong Compilation.SameNames (mergeFound found source change) := by
  unfold mergeFound
  split
  next x => exact .update fun c => h x c.table
  next issue => exact endsAlong_polled .refl .trans fun c => .of_table (c.table_report issue source)

theorem mergeFragments_sameNames : EndsAlong Compilation.SameNames mergeFragments := by
  have hclear : EndsAlong Compilation.SameNames
      (modify ({ · with fragments := {} }) : CompileM PUnit) := .update fun c => .of_table rfl
  -- Three of the rounds change an entity and neither its kind nor its identity.
  have hmodify : ∀ {f : Entity → Entity}, (∀ e, (f e).kind = e.kind ∧ (f e).identity = e.identity) →
      ∀ (x : EntityId) (t : SymbolTable), t.SameNames (t.modify x f) :=
    fun hf x t => t.sameNames_modify x hf
  refine .get_bind fun c => ?_
  refine EndsAlong.bind Compilation.SameNames.trans hclear (fun _ => ?_) c
  refine .bind .trans (.forM .trans .refl fun d _ => ?dictionaries) fun _ =>
    .bind .trans (.forM .trans .refl fun d _ => ?interfaces) fun _ =>
      .bind .trans (.forM .trans .refl fun d _ => ?mixins) fun _ =>
        .forM .trans .refl fun d _ => ?inclusions
  case dictionaries =>
    refine .get_bind fun c => mergeFound_sameNames _ _ (fun x t => hmodify (fun e => ?_) x t) c
    cases e <;> exact ⟨rfl, rfl⟩
  case interfaces =>
    refine .get_bind fun c => mergeFound_sameNames _ _ (fun x t => hmodify (fun e => ?_) x t) c
    cases e <;> exact ⟨rfl, rfl⟩
  case mixins =>
    refine .get_bind fun c => EndsAlong.bind Compilation.SameNames.trans
      (mergeFound_sameNames _ _ fun i t => ?_) (fun _ => endsAlong_checkLimit .refl) c
    exact t.sameNames_extendMixin i d.members
  case inclusions =>
    refine .get_bind fun c => mergeFound_sameNames _ _
      (fun (x : EntityId × Mixin) t => hmodify (fun e => ?_) x.1 t) c
    cases e <;> exact ⟨rfl, rfl⟩

/-! ## Linking -/

theorem Linker.tracks_sameNames : Tracks fun l l' => l.table.SameNames l'.table where
  refl l := .refl l.table
  trans _ _ _ h h' := h.trans h'
  add l _ := .refl l.table
  setTypedef l i type := l.table.sameNames_setTypedef i type
  enter l id _ := l.table.sameNames_mark id
  place l id parent fields := by
    show l.table.SameNames (l.table.modify id fun e => (e.setParent parent).setInherited fields)
    exact l.table.sameNames_modify id fun e => by simp
  put _ _ _ _ _ h he hblank := h.put he hblank

theorem linkInterfaces_sameNames : EndsAlong Compilation.SameNames linkInterfaces := fun c => by
  rw [linkInterfaces, endState_withLinker]
  exact Linker.tracks_sameNames.linkRoots { compilation := c }

/-! ## Promises -/

/-- The entities of a promise are declared under no name. -/
theorem SymbolTable.declaredName?_promiseGroup {package : String} {at_ : Location}
    {key name : String} {u : TypeRef} {n : Nat} {e : Entity}
    (he : e ∈ promiseGroup package at_ key name u n) : e.declaredName? = none := by
  obtain ⟨d, hd, rfl⟩ := List.mem_map.mp he
  have hidentity :=
    Entity.identity_eq_of_blank (Entity.blank_mapTypes (TypeRef.fill u (promiseAt n)) d)
  simp only [PromiseTemplate.entities, List.mem_cons, List.not_mem_nil, or_false] at hd
  rcases hd with rfl | rfl | rfl
  all_goals
    rw [Entity.declaredName?, hidentity]
    rfl

theorem sameNames_makePromise (package : String) (at_ : Location) (key : String) (u : TypeRef)
    (c : Compilation) : c.SameNames (c.makePromise package at_ key u).1 := by
  have hadded : c.table.SameNames ((promiseGroup (c.promisePackage package u) at_ key
      (c.table.elementName u) u c.table.size).foldl addInUse c.table) :=
    foldl_leads .refl (fun _ _ _ => .trans)
      (fun _ he t => t.sameNames_addInUse (declaredName?_promiseGroup he)) c.table
  refine hadded.trans ?_
  unfold makePromise
  dsimp only
  split
  · exact (sameNames_putPromise _ _ _).trans (sameNames_putPromise _ _ _)
  · exact sameNames_putPromise _ _ _

theorem replaces_sameNames : Replaces Compilation.SameNames where
  refl := .refl
  trans := .trans
  report c issue at_ := .of_table (c.table_report issue at_)
  mark c x := c.table.sameNames_mark x
  make c package at_ key element := sameNames_makePromise package at_ key element c

theorem instantiatePromises_sameNames : EndsAlong Compilation.SameNames instantiatePromises :=
  replaces_sameNames.instantiatePromises fun _ _ _ _ _ h he hblank =>
    SymbolTable.SameNames.put h he hblank

/-! ## Method names -/

namespace MethodNaming

theorem nameOwn_sameNames (id : EntityId) (d : Interface) (inherited : NameCounters)
    (s : MethodNaming) : s.table.SameNames (nameOwn id d inherited s).2.table := by
  simp only [nameOwn]
  refine s.table.sameNames_modify id fun e => ?_
  cases e <;> exact ⟨rfl, rfl⟩

theorem nameMethods_sameNames (fuel : Nat) (below : List EntityId) (id : EntityId)
    (s : MethodNaming) : s.table.SameNames (nameMethods fuel below id s).2.table := by
  induction fuel generalizing below id s with
  | zero => exact .refl s.table
  | succ fuel ih =>
    unfold nameMethods
    split
    next => exact .refl s.table
    next d _ _ =>
      split
      next => exact .refl s.table
      next =>
        refine SymbolTable.SameNames.trans ?_ (nameOwn_sameNames ..)
        split
        next => exact ih ..
        next => exact .refl s.table
    next => exact .refl s.table

end MethodNaming

theorem resolveMethodNames_sameNames : EndsAlong Compilation.SameNames resolveMethodNames :=
  endsAlong_polled .refl .trans fun c =>
    foldl_leads (R := fun s s' : MethodNaming => s.table.SameNames s'.table)
      (fun s => .refl s.table) (fun _ _ _ h h' => h.trans h')
      (fun id _ s => MethodNaming.nameMethods_sameNames _ [] id s) { table := c.table }

/-! ## Calls -/

/-- A call of a stage, with what the first and the last stage read. -/
structure StageCall where
  /-- The stage. -/
  stage : Stage
  /-- The documents. -/
  documents : List Document := []
  /-- The scripts. -/
  scripts : List Script.Source := []

/-- The action of a call. -/
def StageCall.action (call : StageCall) : CompileM Unit :=
  call.stage.action call.documents call.scripts

/-- The state behind some calls, each of which may stop. -/
def Compilation.after (c : Compilation) (calls : List StageCall) : Compilation :=
  calls.foldl (fun c call => endState (call.action c)) c

theorem StageCall.evolves (call : StageCall) : EndsAlong Evolves call.action := by
  intro c
  obtain ⟨stage, documents, scripts⟩ := call
  cases stage with
  | extract => exact declares_evolves.declareDocuments documents c
  | merge => exact (mergeFragments_sameNames c).evolves
  | link => exact (linkInterfaces_sameNames c).evolves
  | promise => exact (instantiatePromises_sameNames c).evolves
  | overrides => exact (resolveMethodNames_sameNames c).evolves
  | transform =>
      have hpresents := edits_presents.runScriptsBy Pattern.accepts scripts c
      rw [runScriptsBy_accepts] at hpresents
      exact Compilation.SameNames.evolves (SymbolTable.Presents.sameNames hpresents)

theorem Compilation.evolves_after (c : Compilation) (calls : List StageCall) :
    c.Evolves (c.after calls) :=
  foldl_leads .refl .trans (fun call _ c => call.evolves c) c

/-- Behind any calls of stages a name stands for a symbol exactly if the symbol is declared under
it, no two symbols share a name, and no later call changes what a name stands for or the kind and
name behind a handle. -/
theorem names_sound_complete_stable (settings : Settings) (calls later : List StageCall) :
    let c := ({ settings } : Compilation).after calls
    c.table.Indexed ∧ c.table.HasDistinctNames ∧ c.table.Extends (c.after later).table := by
  intro c
  have hindexed := (Compilation.evolves_after { settings } calls .empty).1
  exact ⟨hindexed, hindexed.hasDistinctNames, (c.evolves_after later hindexed).2⟩

end IdlModel
