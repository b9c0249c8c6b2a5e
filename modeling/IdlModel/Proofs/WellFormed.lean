import IdlModel.Proofs.InUse

/-!
# Well-formed entities

What has to be right with an entity if the linker is to report nothing about it.
This is told by the table before linking.

* *Types.*  A type meets everything below it, and what is met in a typedef that it
  names.  Every name that it meets is declared, no typedef that it meets is met again
  in its own body, and every generic type that it meets is known.
* *Parents.*  A parent names an entity of the same kind, and there is no cycle among
  the ancestors.

A type that expands to a linked one is well formed (`Expands.wellFormed`).  So behind
a run without errors every entity in use is.
-/

namespace IdlModel

open Relation

/-! ## Well-formed types and entities -/

/-- A type that can be expanded. -/
structure WellFormedType (t₀ : SymbolTable) (t : TypeRef) : Prop where
  declared : ∀ name, Meets t₀ t (.unlinked name) →
    (∃ id, t₀.lookup? name = some (.type id)) ∨ ∃ i, t₀.lookup? name = some (.typedef i)
  acyclic : ∀ name (i : Nat) d, Meets t₀ t (.unlinked name) →
    t₀.lookup? name = some (.typedef i) → t₀.typedefs[i]? = some d →
      ¬ Meets t₀ d.type (.unlinked name)
  generics : ∀ name args, Meets t₀ t (.parametrized name args) → name ∈ knownGenerics

/-- An entity about which there is nothing to report. -/
structure WellFormed (t₀ : SymbolTable) (x : EntityId) : Prop where
  parent : ∀ e p, t₀.entity? x = some e → e.parent? = some p →
    ∃ name y, p = .unlinked name ∧ t₀.lookup? name = some (.type y) ∧ t₀.kind? y = some e.kind
  acyclic : ∀ y, ReflTransGen t₀.HasParent x y → ¬ t₀.OnCycle y
  types : ∀ e, t₀.entity? x = some e → ∀ ty ∈ e.types, WellFormedType t₀ ty.2

section Types

variable {t₀ t' : SymbolTable} {t u s : TypeRef} {name : String} {i : Nat} {d : Typedef}

theorem Meets.trans (h : Meets t₀ t u) (hs : Meets t₀ u s) : Meets t₀ t s := by
  induction h with
  | self => exact hs
  | part mem _ ih => exact .part mem (ih hs)
  | typedef lookup body _ ih => exact .typedef lookup body (ih hs)

/-- What is met in a well-formed type is well formed. -/
theorem WellFormedType.of_meets (h : WellFormedType t₀ t) (hu : Meets t₀ t u) :
    WellFormedType t₀ u where
  declared name hname := h.declared name (hu.trans hname)
  acyclic name i d hname := h.acyclic name i d (hu.trans hname)
  generics name args hname := h.generics name args (hu.trans hname)

/-! ## Types that expand -/

/-- A type without names meets no more than what lies below it. -/
theorem Meets.mem_subrefs (h : Meets t₀ u s) (hu : u.Everywhere fun s => s.isName = false) :
    s ∈ u.subrefs := by
  induction h with
  | self => exact TypeRef.mem_subrefs_self _
  | part mem _ ih => exact TypeRef.mem_subrefs_iff.mpr (.inr ⟨_, mem, ih (hu.part mem)⟩)
  | typedef _ _ _ _ => exact absurd hu.self Bool.noConfusion

/-- Other parts do not make another generic type. -/
theorem TypeRef.parametrized_of_withParts {vs us : List TypeRef}
    (h : t.withParts vs = .parametrized name us) : ∃ args, t = .parametrized name args := by
  unfold withParts at h
  split at h
  next => cases h
  next => cases h
  next =>
    cases h
    exact ⟨_, rfl⟩
  next => cases h
  next => cases h
  next => exact ⟨us, h⟩

/-- A generic type in an expansion comes from one that is met. -/
theorem Expands.meets_parametrized (h : Expands t₀ t u) {us : List TypeRef}
    (hu : .parametrized name us ∈ u.subrefs) : ∃ args, Meets t₀ t (.parametrized name args) := by
  induction h with
  | type _ _ =>
      rw [TypeRef.mem_subrefs_iff] at hu
      simp [TypeRef.parts] at hu
  | typedef lookup body _ ih =>
      obtain ⟨args, hmeets⟩ := ih hu
      exact ⟨args, .typedef lookup body hmeets⟩
  | @parts t vs head length each ih =>
      have hstep := forall₂_of_zip (R := fun t u => .parametrized name us ∈ u.subrefs →
        ∃ args, Meets t₀ t (.parametrized name args)) length ih
      rcases TypeRef.mem_subrefs_iff.mp hu with heq | ⟨v, hv, hsub⟩
      · obtain ⟨args, rfl⟩ := TypeRef.parametrized_of_withParts heq.symm
        exact ⟨args, .self⟩
      · rw [TypeRef.parts_withParts length] at hv
        obtain ⟨s, hs, hback⟩ := forall₂_right hstep v hv
        obtain ⟨args, hmeets⟩ := hback hsub
        exact ⟨args, .part hs hmeets⟩

/-- No typedef is met again in its own body, for else the expansion would be
infinite. -/
theorem Expands.not_meets_self (h : Expands t₀ t u) (hname : Meets t₀ t (.unlinked name))
    (hlookup : t₀.lookup? name = some (.typedef i)) (hd : t₀.typedefs[i]? = some d) :
    ¬ Meets t₀ d.type (.unlinked name) := by
  induction h with
  | type lookup _ =>
      cases hname with
      | self => cases lookup.symm.trans hlookup
      | part mem _ => cases mem
      | typedef lookup' _ _ => cases lookup.symm.trans lookup'
  | typedef lookup body _ ih =>
      cases hname with
      | self =>
          cases lookup.symm.trans hlookup
          cases body.symm.trans hd
          intro hmeets
          exact ih hmeets hmeets
      | part mem _ => cases mem
      | typedef lookup' body' rest =>
          cases lookup.symm.trans lookup'
          cases body.symm.trans body'
          exact ih rest
  | @parts t us head length each ih =>
      have hstep := forall₂_of_zip (R := fun t _ => Meets t₀ t (.unlinked name) →
        ¬ Meets t₀ d.type (.unlinked name)) length ih
      cases hname with
      | self => cases head
      | part mem rest =>
          obtain ⟨_, _, hpart⟩ := forall₂_right hstep.flip _ mem
          exact hpart rest
      | typedef _ _ _ => cases head

/-- A type that expands to a linked one is well formed. -/
theorem Expands.wellFormed (h : Expands t₀ t u) (hu : t'.Linked u) : WellFormedType t₀ t where
  declared name hname := by
    obtain ⟨v, _, hv⟩ := h.meets hname
    cases hv with
    | type lookup _ => exact .inl ⟨_, lookup⟩
    | typedef lookup _ _ => exact .inr ⟨_, lookup⟩
    | parts head _ _ => cases head
  acyclic name i d hname hlookup hd := h.not_meets_self hname hlookup hd
  generics name args hname := by
    obtain ⟨v, hv, hexpands⟩ := h.meets hname
    obtain ⟨vs, rfl, _⟩ := hexpands.parts_inv rfl
    exact hu _ hv

/-- A type that may be expanded meets no other names than before. -/
theorem Unfolds.meets_unlinked (h : Unfolds t₀ t u) (hu : Meets t₀ u (.unlinked name)) :
    Meets t₀ t (.unlinked name) := by
  rcases h with rfl | h
  · exact hu
  · exact absurd (h.named _ (hu.mem_subrefs h.named)) Bool.noConfusion

/-- A well-formed type is so when it is expanded already. -/
theorem WellFormedType.unfolds (h : WellFormedType t₀ t) (hu : Unfolds t₀ t u) :
    WellFormedType t₀ u where
  declared name hname := h.declared name (hu.meets_unlinked hname)
  acyclic name i d hname := h.acyclic name i d (hu.meets_unlinked hname)
  generics name args hname := by
    rcases hu with rfl | hu
    · exact h.generics name args hname
    · obtain ⟨args', hmeets⟩ := hu.meets_parametrized (hname.mem_subrefs hu.named)
      exact h.generics name args' hmeets

end Types

/-! ## Entities in use -/

/-- Behind a run without errors every entity that is reached is well formed. -/
theorem Linker.Finished.wellFormed {t₀ : SymbolTable} {l : Linker} {x : EntityId}
    (ht₀ : t₀.Declared) (h : l.Finished t₀) (hx : Reached t₀ (· ∈ t₀.idsOf .interface) x) :
    WellFormed t₀ x where
  parent e p he hp := by
    obtain ⟨y, hparent⟩ := h.exists_hasParent (h.isInUse_of_reached ht₀ hx) he hp
    obtain ⟨name, hname, hlookup, hkind⟩ := (ht₀.hasParent_iff he).mp hparent
    exact ⟨name, y, Option.some.inj (hp.symm.trans hname), hlookup, hkind⟩
  acyclic y hy := (h.done y (h.isInUse_of_reached ht₀ (hx.ancestor hy))).acyclic
  types e he ty hty := by
    obtain ⟨u, hexpands, hlinked⟩ := h.exists_expands ht₀ (h.isInUse_of_reached ht₀ hx) he hty
    exact hexpands.wellFormed hlinked

end IdlModel
