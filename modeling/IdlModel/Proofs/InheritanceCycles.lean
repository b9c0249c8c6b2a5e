import Mathlib.Data.Set.Card
import IdlModel.Proofs.CutParents

/-!
# Inheritance cycles

What becomes of cycles of parents, in a table that may have any other defects, if some
entities are linked one after the other and there are never too many errors.

*Ends.*  No parent of an entity in use is left that leads back to it, and the parent is
in use itself.  So each entity in use has a lineage.

*Counting.*  A cycle with an entity in use has lost a parent, for otherwise it would be
left.  It has lost one only, and each loss was reported.  So the reports are as many as
these cycles.
-/

namespace IdlModel

open Relation (ReflTransGen TransGen)
open Syntax (Document)

/-! ## Cycles of a table -/

namespace SymbolTable

variable {t : SymbolTable} {x y : EntityId}

/-- A cycle of declared parents: the entities to which one leads that leads back to
itself. -/
def IsInheritanceCycle (t : SymbolTable) (cycle : Set EntityId) : Prop :=
  ∃ x, TransGen t.DeclaresParent x x ∧ cycle = { y | ReflTransGen t.DeclaresParent x y }

/-- The entities to which one leads. -/
def ancestry (t : SymbolTable) (x : EntityId) : Set EntityId := { y | ReflTransGen t.HasParent x y }

theorem Unlinked.isInheritanceCycle_iff (h : t.Unlinked) {cycle : Set EntityId} :
    t.IsInheritanceCycle cycle ↔ ∃ x, t.OnCycle x ∧ cycle = t.ancestry x := by
  rw [IsInheritanceCycle, ← h.hasParent_eq]
  rfl

/-- All entities on a cycle lead to the same ones. -/
theorem OnCycle.ancestry_eq (h : t.OnCycle x) (hy : y ∈ t.ancestry x) :
    t.ancestry y = t.ancestry x := by
  ext z
  constructor
  · exact fun hz => ReflTransGen.trans hy hz
  · exact fun hz => (h.leads_back hy).to_reflTransGen.trans hz

end SymbolTable

namespace Linker

variable {t₀ : SymbolTable} {n budget : Nat} {l l' : Linker} {id : EntityId}

/-! ## Visits -/

/-- What visits have to do, as long as at most `budget` entities are not in use. -/
def VisitsCut (t₀ : SymbolTable) (n budget : Nat) (visit : EntityId → LinkM Unit) : Prop :=
  ∀ id l, Cutting t₀ n l → l.table.unused ≤ budget →
    Cutting t₀ n ((visit id).run l).2 ∧ Onward l ((visit id).run l).2 ∧
      (((visit id).run l).2.compilation.isOverLimit = false → id.index < t₀.size →
        ((visit id).run l).2.table.isInUse id = true)

theorem VisitsCut.leads {visit : EntityId → LinkM Unit} (h : VisitsCut t₀ n budget visit)
    (id : EntityId) : Leads (Cuts t₀ n budget) (visit id) := fun l hl hbudget =>
  ⟨(h id l hl hbudget).1, (h id l hl hbudget).2.1⟩

/-- An entity in use keeps its parent when its types are put back, for the visits in
between have kept it. -/
theorem sameParents_put (hl : Cutting t₀ n l) (hl' : Cutting t₀ n l') (honward : Onward l l')
    (hused : l.table.isInUse id = true) {e e' : Entity} (he : l.table.entity? id = some e)
    (hblank : e'.blank = e.blank) : SameParents l' (l'.withTable (l'.table.set id e')) := by
  have hkind : l'.table.kind? id = some e'.kind := by
    rw [hl'.shape.kinds, ← hl.shape.kinds, SymbolTable.kind?_eq he, Entity.kind_eq_of_blank hblank]
  have hput : l'.table.SameShape (l'.table.set id e') := SymbolTable.sameShape_set hkind
  have hothers : ∀ x, x ≠ id → (l'.table.set id e').parentRef? x = l'.table.parentRef? x :=
    fun x hx => SymbolTable.parentRef?_modify_of_ne _ hx _
  refine ⟨hput, fun x => ?_, fun x => ?_, fun x hx => ?_, rfl, fun h => h⟩
  · rw [table_withTable, SymbolTable.isInUse_set]
  · by_cases hx : x = id
    · have hlt : id.index < l'.table.size := by
        rw [hl'.shape.size, ← hl.shape.size]
        exact SymbolTable.lt_of_entity? he
      have hshape : l.table.SameShape (l'.table.set id e') :=
        ⟨(hl'.shape.trans hput).names.trans hl.shape.names.symm,
          (hl'.shape.trans hput).size.trans hl.shape.size.symm,
          fun y => ((hl'.shape.trans hput).kinds y).trans (hl.shape.kinds y).symm⟩
      rw [hx, honward.kept id hused, table_withTable]
      refine hshape.parentOf?_eq ?_
      rw [SymbolTable.parentRef?_eq (SymbolTable.entity?_set_self hlt e'),
        SymbolTable.parentRef?_eq he, Entity.parent?_eq_of_blank hblank]
    · exact hput.parentOf?_eq (hothers x hx)
  · refine hothers x ?_
    rintro rfl
    cases hx.symm.trans (honward.used x hused)

theorem linkTypes_cuts {visit : EntityId → LinkM Unit} (hvisit : VisitsCut t₀ n budget visit)
    (hl : Cutting t₀ n l) (hbudget : l.table.unused ≤ budget) (hused : l.table.isInUse id = true) :
    Cutting t₀ n ((linkTypes visit id).run l).2 ∧ Onward l ((linkTypes visit id).run l).2 := by
  have hfollows := follows_cuts t₀ n budget
  unfold linkTypes
  rw [run_get_bind]
  cases he : l.table.entity? id with
  | none => exact ⟨hl, .refl l⟩
  | some e =>
      dsimp only
      rw [run_get_bind, run_bind]
      have hwalk := Leads.mapTypesM hfollows.trans hfollows.refl
        (fun at_ t => hfollows.resolve hvisit.leads at_ l.table.names.size [] t) e l
      have hblank := (Entity.blank_mapTypesM
        (fun at_ t => resolve visit at_ l.table.names.size [] t) e).run l
      generalize (e.mapTypesM fun at_ t => resolve visit at_ l.table.names.size [] t).run l = r
        at hwalk hblank ⊢
      obtain ⟨linked, l₁⟩ := r
      obtain ⟨hl₁, honward⟩ := hwalk hl hbudget
      have hsame := sameParents_put hl hl₁ honward hused he hblank
      exact ⟨hl₁.congr hsame, honward.trans hsame.onward⟩

/-- An entity comes into use, and then only visits follow. -/
theorem Entering.onward (ht₀ : t₀.Unlinked) (hfree : l.table.isInUse id = false) {l₂ : Linker}
    (h : Entering l id l₂) (honward : Onward l₂ l') (hl' : Cutting t₀ n l')
    (hparent : l'.compilation.isOverLimit = false → ∀ y, l₂.table.HasParent id y →
      y.index < t₀.size → l'.table.isInUse y = true) : Onward l l' := by
  have hused : ∀ x, l.table.isInUse x = true → x ≠ id ∧ l₂.table.isInUse x = true := by
    intro x hx
    refine ⟨?_, (h.used x).mpr (.inr hx)⟩
    rintro rfl
    cases hfree.symm.trans hx
  refine ⟨fun x hx => honward.used x (hused x hx).2, fun x hx => ?_,
    fun hlimit => h.limit (honward.limit hlimit), fun hlimit x y hx hx' hxy => ?_⟩
  · rw [honward.kept x (hused x hx).2, h.parentOf?_eq (hused x hx).1]
  · by_cases hid : x = id
    · subst hid
      have hlt := ht₀.lt_of_hasParent (hl'.hasParent hxy).1
      refine hparent hlimit y ?_ hlt
      exact (honward.kept x ((h.used x).mpr (.inl rfl))).symm.trans hxy
    · refine honward.parents hlimit x y hx ?_ hxy
      rw [← Bool.not_eq_true, h.used, not_or, Bool.not_eq_true]
      exact ⟨hid, hx'⟩

theorem visit_cuts (ht₀ : t₀.Unlinked) (budget : Nat) : VisitsCut t₀ n budget (visit budget) := by
  induction budget with
  | zero =>
    intro id l hl hbudget
    refine ⟨hl, .refl l, fun _ hlt => ?_⟩
    exact SymbolTable.isInUse_of_unused (Nat.le_zero.mp hbudget) (hl.shape.size ▸ hlt)
  | succ budget ih =>
    intro id l hl hbudget
    rw [visit, run_get_bind]
    by_cases hdue : l.isDue id = true
    · rw [if_pos hdue, run_bind, run_bind, run_bind]
      simp only [isDue, Bool.and_eq_true, Bool.not_eq_true', decide_eq_true_eq] at hdue
      obtain ⟨⟨_, hlt⟩, hfree⟩ := hdue
      obtain ⟨l₂, hrun, hentering⟩ := enter_run hlt hfree
      rw [hrun]
      dsimp only
      have hl₂ := hl.enter hfree hentering
      have hid : l₂.table.isInUse id = true := (hentering.used id).mpr (.inl rfl)
      have hbudget₂ : l₂.table.unused ≤ budget := by
        have := hentering.unused
        omega
      obtain ⟨hl₃, honward₃⟩ := linkTypes_cuts ih hl₂ hbudget₂ hid
      generalize ((linkTypes (visit budget) id).run l₂).2 = l₃ at hl₃ honward₃ ⊢
      have hbudget₃ : l₃.table.unused ≤ budget :=
        Nat.le_trans (honward₃.unused_le hl₂ hl₃) hbudget₂
      cases hparent : l₂.table.parentOf? id with
      | none =>
          refine ⟨hl₃, hentering.onward ht₀ hfree honward₃ hl₃ fun _ y hy _ => ?_,
            fun _ _ => honward₃.used id hid⟩
          cases hparent.symm.trans hy
      | some p =>
          obtain ⟨hl₄, honward₄, hused₄⟩ := ih p l₃ hl₃ hbudget₃
          refine ⟨hl₄, hentering.onward ht₀ hfree (honward₃.trans honward₄) hl₄
            fun hlimit y hy hlt => ?_, fun _ _ => honward₄.used id (honward₃.used id hid)⟩
          cases hparent.symm.trans hy
          exact hused₄ hlimit hlt
    · rw [if_neg hdue]
      refine ⟨hl, .refl l, fun hlimit hlt => ?_⟩
      have hlt' : id.index < l.table.size := hl.shape.size ▸ hlt
      have hlimit' : l.compilation.isOverLimit = false := hlimit
      show l.table.isInUse id = true
      simpa [isDue, hlimit', hlt'] using hdue

/-! ## Runs -/

theorem forM_link_cuts (ht₀ : t₀.Unlinked) {ids : List EntityId} {u : Unit} (hl : Cutting t₀ n l)
    (h : ids.forM link l = .ok u l') : Cutting t₀ n l' ∧ Onward l l' ∧ ParentsUsed l l' := by
  induction ids generalizing l with
  | nil =>
    obtain ⟨_, rfl⟩ := pure_ok.mp h
    refine ⟨hl, .refl l, fun x _ hx hx' => ?_⟩
    cases hx.symm.trans hx'
  | cons id ids ih =>
    obtain ⟨l₁, hfirst, hrest⟩ := forM_cons_ok.mp h
    obtain ⟨hl₁, honward₁, _⟩ := visit_cuts ht₀ l.table.size id l hl l.table.unused_le_size
    obtain ⟨rfl, hlimit⟩ := link_ok hfirst
    obtain ⟨hl', honward, hparents⟩ := ih hl₁ hrest
    exact ⟨hl', honward₁.trans honward, (honward₁.parents hlimit).trans honward hparents⟩

/-! ## Counting -/

theorem Cutting.mem_cutOff (h : Cutting t₀ n l) {x : EntityId} :
    x ∈ cutOff t₀ l.table ↔ IsCut t₀ l.table x := by
  rw [cutOff, List.mem_filter, bne_iff_ne, SymbolTable.mem_ids, IsCut, and_iff_right_iff_imp]
  intro hx
  obtain ⟨y, hy⟩ := (h.cut x hx).2.exists_hasParent
  exact hy.lt

/-- The cycles with an entity in use are those of the entities that lost their parent. -/
theorem Cutting.cycles_eq_image (ht₀ : t₀.Unlinked) (h : Cutting t₀ n l) :
    { cycle | t₀.IsInheritanceCycle cycle ∧ ∃ x ∈ cycle, l.table.isInUse x = true } =
      t₀.ancestry '' (cutOff t₀ l.table).toFinset := by
  ext cycle
  simp only [Set.mem_ofPred_eq, Set.mem_image, List.coe_toFinset, h.mem_cutOff,
    ht₀.isInheritanceCycle_iff]
  constructor
  · rintro ⟨⟨x, hx, rfl⟩, y, hy, hused⟩
    obtain ⟨z, hz, hcut⟩ := Cutting.exists_isCut (hx.of_reached hy) (h.free y hused)
    exact ⟨z, hcut, hx.ancestry_eq (hy.trans hz)⟩
  · rintro ⟨x, hx, rfl⟩
    exact ⟨⟨x, (h.cut x hx).2, rfl⟩, x, .refl, h.isInUse_of_isCut hx⟩

/-- No two entities of a cycle lost their parents. -/
theorem Cutting.injOn_ancestry (h : Cutting t₀ n l) :
    Set.InjOn t₀.ancestry (cutOff t₀ l.table).toFinset := by
  intro x hx y hy heq
  simp only [List.coe_toFinset, Set.mem_ofPred_eq, h.mem_cutOff] at hx hy
  have hreached : y ∈ t₀.ancestry x := heq ▸ ReflTransGen.refl
  rcases Relation.reflTransGen_iff_eq_or_transGen.mp hreached with heq | hreached
  · exact heq.symm
  · exact h.once x y hx hy hreached

/-- Linking entities one after the other, in a table in which nothing is linked yet.
If there are never too many errors, every entity in use has a lineage in the end, and
one report of a cycle came for each cycle of declared parents with an entity in use. -/
theorem link_cuts_each_cycle_once {ids : List EntityId} {l l' : Linker} {u : Unit}
    (hl : l.table.Unlinked) (h : ids.forM link l = .ok u l') :
    (∀ x, l'.table.isInUse x = true → ∃ chain, l'.table.Lineage x chain) ∧
      { cycle | l.table.IsInheritanceCycle cycle ∧
        ∃ x ∈ cycle, l'.table.isInUse x = true }.Finite ∧
      l'.cycles = l.cycles +
        { cycle | l.table.IsInheritanceCycle cycle ∧
          ∃ x ∈ cycle, l'.table.isInUse x = true }.ncard := by
  obtain ⟨hcutting, _, hparents⟩ := forM_link_cuts hl (Cutting.start hl) h
  refine ⟨fun x hx => SymbolTable.exists_lineage fun y hy => ?_, ?_, ?_⟩
  · refine hcutting.free y ?_
    induction hy with
    | refl => exact hx
    | tail _ hparent ih => exact hparents _ _ ih (hl.unused _) hparent
  · rw [hcutting.cycles_eq_image hl]
    exact (Finset.finite_toSet _).image _
  · have hnodup : (cutOff l.table l'.table).Nodup := l.table.nodup_ids.filter _
    rw [hcutting.cycles_eq_image hl, hcutting.injOn_ancestry.ncard_image, Set.ncard_coe_finset,
      List.toFinset_card_of_nodup hnodup]
    exact hcutting.counted

end Linker

/-- The definitions `interface Hen : Egg {};`, `interface Egg : Hen {};`,
`interface Nest : Hen { attribute Box box; };`, `dictionary Box : Box {};` and
`dictionary Spare : Spare {};`. -/
def henAndEgg : Document :=
  { name := "hen.idl"
    definitions :=
      [.interface { name := "Hen", inherits := some "Egg" },
      .interface { name := "Egg", inherits := some "Hen" },
      .interface
        { name := "Nest"
          inherits := some "Hen"
          members := [.attribute { name := "box", type := .named "Box" }] },
      .dictionary { name := "Box", inherits := some "Box" },
      .dictionary { name := "Spare", inherits := some "Spare" }] }

theorem Linker.link_cuts_each_cycle_once_henAndEgg :
    ∃ merged l', mergeDocuments [henAndEgg] { settings := {} } = .ok () merged ∧
      merged.table.Unlinked ∧
      [⟨2⟩, ⟨0⟩, ⟨1⟩].forM Linker.link { compilation := merged } = .ok () l' ∧ l'.cycles = 2 ∧
      (∀ x, l'.table.isInUse x = true → ∃ chain, l'.table.Lineage x chain) ∧
      { cycle | merged.table.IsInheritanceCycle cycle ∧
        ∃ x ∈ cycle, l'.table.isInUse x = true }.Finite ∧
      l'.cycles = ({ compilation := merged } : Linker).cycles +
        { cycle | merged.table.IsInheritanceCycle cycle ∧
          ∃ x ∈ cycle, l'.table.isInUse x = true }.ncard := by
  have hruns : (answer? ((mergeDocuments [henAndEgg] >>= fun _ =>
      withLinker ([⟨2⟩, ⟨0⟩, ⟨1⟩].forM Linker.link) >>= fun _ => get) { settings := {} })).map
        (fun c => c.log.entries.countP (·.issue.isInheritanceCycle)) = some 2 := by decide +kernel
  obtain ⟨_, _, hruns, hcycles⟩ := ok_of_answer? hruns
  obtain ⟨⟨⟩, merged, hmerge, hruns⟩ := bind_ok.mp hruns
  obtain ⟨⟨⟩, linked, hlink, hget⟩ := bind_ok.mp hruns
  obtain ⟨rfl, rfl⟩ := get_ok.mp hget
  obtain ⟨l', hlinked, rfl⟩ := withLinker_ok.mp hlink
  have hunlinked := (mergeDocuments_declared hmerge).unlinked
  exact ⟨merged, l', hmerge, hunlinked, hlinked, hcycles,
    link_cuts_each_cycle_once (l := { compilation := merged }) hunlinked hlinked⟩

end IdlModel
