import IdlModel.Proofs.StageRuns

/-!
# The compiled model is closed

What a generator of bindings can rely on.  An entity is listed exactly if it is in
use.  What a listed entity mentions is listed as well, and the generator meets no
name, no placeholder and no promise.
-/

namespace IdlModel

namespace CompiledModel

variable {t : SymbolTable} {x : EntityId}

/-- An entity is in a list of a package. -/
def Lists (m : CompiledModel) (x : EntityId) : Prop :=
  ∃ package contents kind, (package, contents) ∈ m.packages ∧ x ∈ contents.ofKind kind

/-- A handle points to an entity of the kind that is in use and listed. -/
def Holds (m : CompiledModel) (kind : EntityKind) (x : EntityId) : Prop :=
  m.table.kind? x = some kind ∧ m.table.isInUse x = true ∧ m.Lists x

/-- A part of a type that a generator can read. -/
def IsReadable (m : CompiledModel) : TypeRef → Prop
  | .unlinked _ => False
  | .placeholder _ => False
  | .parametrized name _ => name ≠ "Promise"
  | .entity kind x => m.Holds kind x
  | _ => True

/-! ## What is listed -/

theorem ofKind_ofTable {package : String} {contents : PackageContents}
    (h : (package, contents) ∈ (ofTable t).packages) (kind : EntityKind) :
    contents.ofKind kind = t.listed package kind ∧ package ∈ t.packageNames := by
  obtain ⟨name, hname, heq⟩ := List.mem_map.mp h
  cases heq
  refine ⟨?_, hname⟩
  cases kind <;> rfl

theorem mem_listed {package : String} {kind : EntityKind} :
    x ∈ t.listed package kind ↔
      t.isInUse x = true ∧ t.packageOf x = package ∧ t.kind? x = some kind := by
  rw [SymbolTable.listed, List.mem_mergeSort, List.mem_filter, SymbolTable.mem_idsInUse,
    Bool.and_eq_true, beq_iff_eq, beq_iff_eq]

/-- An entity is listed exactly if it is in use. -/
theorem lists_ofTable : (ofTable t).Lists x ↔ t.isInUse x = true := by
  constructor
  · rintro ⟨package, contents, kind, hmem, hx⟩
    rw [(ofKind_ofTable hmem kind).1, mem_listed] at hx
    exact hx.1
  · intro hused
    obtain ⟨e, he⟩ := SymbolTable.entity?_of_lt (SymbolTable.lt_of_isInUse hused)
    have hname : t.packageOf x ∈ t.packageNames := by
      rw [SymbolTable.packageNames, List.mem_mergeSort, List.mem_eraseDups]
      exact List.mem_map_of_mem ((t.mem_idsInUse x).mpr hused)
    have hmem := List.mem_map_of_mem (f := fun name => (name,
      ({ enumerations := t.listed name .enumeration
         callbacks := t.listed name .callback
         dictionaries := t.listed name .dictionary
         interfaces := t.listed name .interface } : PackageContents))) hname
    refine ⟨_, _, e.kind, hmem, ?_⟩
    rw [(ofKind_ofTable hmem e.kind).1, mem_listed]
    exact ⟨hused, rfl, SymbolTable.kind?_eq he⟩

theorem holds_ofTable {kind : EntityKind} (hkind : t.kind? x = some kind)
    (hused : t.isInUse x = true) : (ofTable t).Holds kind x :=
  ⟨hkind, hused, lists_ofTable.mpr hused⟩

/-! ## What is mentioned -/

theorem isReadable_ofTable {s : TypeRef} (hlinked : t.IsLinkedPart s)
    (hpromise : s.isPromise = false) : (ofTable t).IsReadable s := by
  cases s with
  | unlinked _ => exact hlinked.elim
  | placeholder _ => exact hlinked.elim
  | parametrized name _ => exact beq_eq_false_iff_ne.mp hpromise
  | entity kind x => exact holds_ofTable hlinked.1 hlinked.2
  | _ => trivial

end CompiledModel

section Compile

variable {documents : List Syntax.Document} {scripts : List Script.Source} {settings : Settings}
  {model : CompiledModel} {final : Compilation}

theorem compile_lists (h : compile documents scripts { settings } = .ok model final)
    (x : EntityId) : model.Lists x ↔ model.table.isInUse x = true := by
  obtain ⟨_, _, _, _, _, _, _, rfl⟩ := compile_ok h
  exact CompiledModel.lists_ofTable

/-- A finished compilation leaves nothing open in the entities that it lists. -/
theorem compile_closed (h : compile documents scripts { settings } = .ok model final) {x : EntityId}
    (hx : model.Lists x) :
    ∃ e, model.table.entity? x = some e ∧
      (∀ ty ∈ e.types, ty.2.Everywhere model.IsReadable) ∧
      (∀ p, e.parent? = some p → ∃ y, p = .entity e.kind y ∧ model.Holds e.kind y) ∧
      ∀ v ∈ e.events, model.Holds .interface v.type := by
  obtain ⟨_, _, _, _, _, finished, hrun, rfl⟩ := compile_ok h
  have hclosed := hrun.stageTables.closed
  have hused := (compile_lists h x).mp hx
  obtain ⟨e, he⟩ := SymbolTable.entity?_of_lt (SymbolTable.lt_of_isInUse hused)
  refine ⟨e, he, fun ty hty s hs => ?_, fun p hp => ?_, fun v hv => ?_⟩
  · obtain ⟨hlinked, hpromise⟩ := hclosed.types x e hused he ty hty
    exact CompiledModel.isReadable_ofTable (hlinked s hs) (hpromise s hs)
  · obtain ⟨y, rfl, hkind, hy⟩ := hclosed.parents x e p hused he hp
    exact ⟨y, rfl, CompiledModel.holds_ofTable hkind hy⟩
  · obtain ⟨hkind, hv⟩ := hclosed.events x e hused he v hv
    exact CompiledModel.holds_ofTable hkind hv

/-- The definition `interface Node { Promise<Node> ready(); };`. -/
def readyNode : Syntax.Document :=
  { name := "node.idl"
    definitions :=
      [.interface
        { name := "Node"
          members :=
            [.operation { name := some "ready", returnType := .generic "Promise" [.named "Node"] }] }] }

theorem compile_closed_readyNode :
    ∃ model final, compile [readyNode] [] { settings := {} } = .ok model final ∧
      model.Lists ⟨0⟩ ∧
      ∃ e, model.table.entity? ⟨0⟩ = some e ∧
        (∀ ty ∈ e.types, ty.2.Everywhere model.IsReadable) ∧
        (∀ p, e.parent? = some p → ∃ y, p = .entity e.kind y ∧ model.Holds e.kind y) ∧
        ∀ v ∈ e.events, model.Holds .interface v.type := by
  have hused : (answer? (compile [readyNode] [] { settings := {} })).map (·.table.isInUse ⟨0⟩) =
      some true := by decide +kernel
  obtain ⟨model, final, hrun, hused⟩ := ok_of_answer? hused
  have hlists := (compile_lists hrun ⟨0⟩).mpr hused
  exact ⟨model, final, hrun, hlists, compile_closed hrun hlists⟩

end Compile

end IdlModel
