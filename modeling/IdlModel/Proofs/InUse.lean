import Mathlib.Data.Set.Card
import IdlModel.Proofs.LinkedTypes

/-!
# Entities in use

Which entities come into use if no error is reported.  They are the ones that are
reached from the interfaces.

*Nothing else.*  No visit starts but from a root, from a parent and from a handle.
The linker's invariant carries this along (`Linking.reached`).

*Nothing less.*  Behind the run every entity in use is done.  Its parent is in use,
and so is every handle in its types.  An entity that a declared type names, perhaps
through typedefs, is a handle in the expansion of the type.

*Counting.*  Each visit takes one entity into use, so the visits are as many as the
entities that are reached.
-/

namespace IdlModel

open Syntax (Document)

/-! ## What is met in a type -/

/-- A reference is met in a type. -/
inductive Meets (t₀ : SymbolTable) : TypeRef → TypeRef → Prop
  | self {t : TypeRef} : Meets t₀ t t
  | part {t u s : TypeRef} (mem : u ∈ t.parts) (rest : Meets t₀ u s) : Meets t₀ t s
  | typedef {name : String} {i : Nat} {d : Typedef} {s : TypeRef}
      (lookup : t₀.lookup? name = some (.typedef i)) (body : t₀.typedefs[i]? = some d)
      (rest : Meets t₀ d.type s) : Meets t₀ (.unlinked name) s

/-- What a type meets expands to something below the expansion of the type. -/
theorem Expands.meets {t₀ : SymbolTable} {t u s : TypeRef} (h : Expands t₀ t u)
    (hs : Meets t₀ t s) : ∃ v ∈ u.subrefs, Expands t₀ s v := by
  induction hs generalizing u with
  | self => exact ⟨u, TypeRef.mem_subrefs_self u, h⟩
  | @part t s' _ mem _ ih =>
      have head : t.isName = false := by
        cases t with
        | unlinked _ => cases mem
        | _ => rfl
      obtain ⟨us, rfl, hus⟩ := h.parts_inv head
      obtain ⟨u, hu, hexpands⟩ := forall₂_right hus.flip s' mem
      obtain ⟨v, hv, hsv⟩ := ih hexpands
      refine ⟨v, TypeRef.mem_subrefs_iff.mpr (.inr ⟨u, ?_, hv⟩), hsv⟩
      rwa [TypeRef.parts_withParts hus.length_eq.symm]
  | typedef lookup body _ ih =>
      cases h with
      | type lookup' _ => cases lookup.symm.trans lookup'
      | typedef lookup' body' expands =>
          cases lookup.symm.trans lookup'
          cases body.symm.trans body'
          exact ih expands
      | parts head _ _ => cases head

/-- A mentioned entity is met as a handle or as a name. -/
theorem Mentions.meets {t₀ : SymbolTable} {t : TypeRef} {y : EntityId} (h : Mentions t₀ t y) :
    (∃ kind, Meets t₀ t (.entity kind y)) ∨
      ∃ name, Meets t₀ t (.unlinked name) ∧ t₀.lookup? name = some (.type y) := by
  induction h with
  | handle => exact .inl ⟨_, .self⟩
  | type lookup => exact .inr ⟨_, .self, lookup⟩
  | typedef lookup body _ ih =>
      exact ih.imp (fun ⟨kind, h⟩ => ⟨kind, .typedef lookup body h⟩)
        fun ⟨name, h, hname⟩ => ⟨name, .typedef lookup body h, hname⟩
  | part mem _ ih =>
      exact ih.imp (fun ⟨kind, h⟩ => ⟨kind, .part mem h⟩)
        fun ⟨name, h, hname⟩ => ⟨name, .part mem h, hname⟩

/-- What is mentioned in a part that is met is mentioned in the whole. -/
theorem Meets.mentions {t₀ : SymbolTable} {t s : TypeRef} {y : EntityId} (h : Meets t₀ t s)
    (hy : Mentions t₀ s y) : Mentions t₀ t y := by
  induction h with
  | self => exact hy
  | part mem _ ih => exact .part mem (ih hy)
  | typedef lookup body _ ih => exact .typedef lookup body (ih hy)

/-- What a type mentions is a handle in the type that it stands for. -/
theorem Expands.handle_of_mentions {t₀ : SymbolTable} {t u : TypeRef} {y : EntityId}
    (h : Expands t₀ t u) (hy : Mentions t₀ t y) : ∃ kind, .entity kind y ∈ u.subrefs := by
  rcases hy.meets with ⟨kind, hmeets⟩ | ⟨name, hmeets, hlookup⟩
  · obtain ⟨v, hv, hexpands⟩ := h.meets hmeets
    rw [hexpands.leaf_inv rfl rfl] at hv
    exact ⟨kind, hv⟩
  · obtain ⟨v, hv, hexpands⟩ := h.meets hmeets
    cases hexpands with
    | type lookup _ =>
        cases hlookup.symm.trans lookup
        exact ⟨_, hv⟩
    | typedef lookup _ _ => cases hlookup.symm.trans lookup
    | parts head _ _ => cases head

/-! ## Behind a run -/

namespace Linker.Finished

variable {t₀ : SymbolTable} {l : Linker} {x : EntityId}

/-- The parent that an entity in use declares is an entity of its kind. -/
theorem exists_hasParent (h : l.Finished t₀) (hused : l.table.isInUse x = true) {e₀ : Entity}
    (he₀ : t₀.entity? x = some e₀) {p : TypeRef} (hp : e₀.parent? = some p) :
    ∃ y, t₀.HasParent x y := by
  obtain ⟨e, he, hrebuilt⟩ := h.linking.used x e₀ hused he₀
  cases hparent : t₀.parentOf? x with
  | some y => exact ⟨y, hparent⟩
  | none =>
      have hkept : e.parent? = some p := by
        rw [Entity.parent?_eq_of_blank hrebuilt.blank, SymbolTable.placed_of_no_parent hparent, hp]
      obtain ⟨y, _, hy⟩ := (h.done x hused).parent e p he hkept
      exact ⟨y, hy⟩

/-- A type that an entity in use declares has a linked expansion. -/
theorem exists_expands (ht₀ : t₀.Declared) (h : l.Finished t₀) (hused : l.table.isInUse x = true)
    {e₀ : Entity} (he₀ : t₀.entity? x = some e₀) {ty : Location × TypeRef} (hty : ty ∈ e₀.types) :
    ∃ u, Expands t₀ ty.2 u ∧ l.table.Linked u := by
  obtain ⟨e, he, _⟩ := h.linking.entity he₀
  obtain ⟨e₀', he₀', hrebuilt⟩ := h.linking.expanded hused (h.done x hused) he
  obtain rfl := Option.some.inj (he₀'.symm.trans he₀)
  -- Before linking there are no inherited members, so every type is an own one.
  have hplaced : ty ∈ (t₀.placed x e₀').types := by
    refine Entity.mem_types_of_mem_ownTypes ?_
    rwa [Entity.ownTypes_placed, Entity.ownTypes, (ht₀.entities x e₀' he₀).inherited]
  obtain ⟨ty', hty', _, hexpands⟩ := forall₂_right hrebuilt.types.flip ty hplaced
  exact ⟨ty'.2, hexpands, (h.done x hused).types e he ty' hty'⟩

/-- Every entity that is reached comes into use. -/
theorem isInUse_of_reached (ht₀ : t₀.Declared) (h : l.Finished t₀)
    (hx : Reached t₀ (· ∈ t₀.idsOf .interface) x) : l.table.isInUse x = true := by
  induction hx with
  | root hroot => exact h.roots _ hroot
  | @parent x y _ hparent ih => exact (h.done x ih).used y hparent
  | mention _ he hty hmentions ih =>
      obtain ⟨u, hexpands, hlinked⟩ := h.exists_expands ht₀ ih he hty
      obtain ⟨kind, hhandle⟩ := hexpands.handle_of_mentions hmentions
      exact (hlinked _ hhandle).2

theorem isInUse_iff (ht₀ : t₀.Declared) (h : l.Finished t₀) :
    l.table.isInUse x = true ↔ Reached t₀ (· ∈ t₀.idsOf .interface) x :=
  ⟨h.linking.reached x, h.isInUse_of_reached ht₀⟩

/-- There are as many visits as entities in use. -/
theorem visits_eq (h : l.Finished t₀) : l.visits = l.table.idsInUse.length := by
  have hcounted := h.linking.counted
  have hsplit := l.table.length_idsInUse_add_unused
  have hsize := h.linking.size
  omega

theorem visits_eq_ncard (ht₀ : t₀.Declared) (h : l.Finished t₀) :
    l.visits = Set.ncard { x | Reached t₀ (· ∈ t₀.idsOf .interface) x } := by
  have hset : { x | Reached t₀ (· ∈ t₀.idsOf .interface) x } = ↑l.table.idsInUse.toFinset := by
    ext x
    simp only [Set.mem_ofPred_eq, List.coe_toFinset, SymbolTable.mem_idsInUse, h.isInUse_iff ht₀]
  rw [h.visits_eq, hset, Set.ncard_coe_finset,
    List.toFinset_card_of_nodup l.table.nodup_idsInUse]

end Linker.Finished

/-- Behind linking the entities in use are those that are reached from the
interfaces, and each of them was visited once.  Every parent that one of them
declares is an entity of its kind, so it does not matter that others do not count. -/
theorem linked_inUse_iff_reached {documents : List Document} {settings : Settings}
    {merged linked : Compilation} (h : mergeDocuments documents { settings } = .ok () merged)
    (hlink : runStage linkInterfaces .link merged = .ok () linked) :
    ∃ l, Linker.linkRoots { compilation := merged } = .ok () l ∧ l.compilation = linked ∧
      (∀ x, linked.table.isInUse x = true ↔
        Reached merged.table (· ∈ merged.table.idsOf .interface) x) ∧
      (∀ x e name, linked.table.isInUse x = true → merged.table.entity? x = some e →
        e.parent? = some (.unlinked name) →
        ∃ y, merged.table.lookup? name = some (.type y) ∧ merged.table.HasParent x y) ∧
      l.visits = Set.ncard { x | Reached merged.table (· ∈ merged.table.idsOf .interface) x } := by
  have hdeclared := mergeDocuments_declared h
  obtain ⟨hrun, hclean⟩ := runStage_ok.mp hlink
  obtain ⟨l, hroots, rfl⟩ := withLinker_ok.mp hrun
  have hfinished := Linker.linkRoots_spec hdeclared hroots hclean
  refine ⟨l, hroots, rfl, fun x => hfinished.isInUse_iff hdeclared, fun x e name hused he hname => ?_,
    hfinished.visits_eq_ncard hdeclared⟩
  obtain ⟨y, hparent⟩ := hfinished.exists_hasParent hused he hname
  obtain ⟨_, hname', hlookup, _⟩ := (hdeclared.hasParent_iff he).mp hparent
  cases hname.symm.trans hname'
  exact ⟨y, hlookup, hparent⟩

theorem linked_inUse_iff_reached_meter :
    ∃ merged linked, mergeDocuments [meter] { settings := {} } = .ok () merged ∧
      runStage linkInterfaces .link merged = .ok () linked ∧
      ∃ l, Linker.linkRoots { compilation := merged } = .ok () l ∧ l.compilation = linked ∧
        (∀ x, linked.table.isInUse x = true ↔
          Reached merged.table (· ∈ merged.table.idsOf .interface) x) ∧
        (∀ x e name, linked.table.isInUse x = true → merged.table.entity? x = some e →
          e.parent? = some (.unlinked name) →
          ∃ y, merged.table.lookup? name = some (.type y) ∧ merged.table.HasParent x y) ∧
        l.visits = Set.ncard { x | Reached merged.table (· ∈ merged.table.idsOf .interface) x } := by
  obtain ⟨merged, linked, hmerge, hlink⟩ := meter_links
  exact ⟨merged, linked, hmerge, hlink, linked_inUse_iff_reached hmerge hlink⟩

end IdlModel
