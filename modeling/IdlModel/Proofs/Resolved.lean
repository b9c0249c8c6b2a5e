import IdlModel.Proofs.LinkRun

/-!
# Resolved tables

What the later stages need of a linked table, without the run that linked it.

*Types.*  All types of an entity in use are linked.  A handle that is not the
whole type stands where a name stood that is the name of no builtin type.  A bare
handle may point to an entity with such a name, for a constructor returns its
interface.

*Parents.*  The parent of an entity in use is in use and of the same kind, and no
entity in use is on a cycle.

*Interfaces.*  All interfaces are in use.
-/

namespace IdlModel

/-! ## Resolved tables -/

namespace SymbolTable

/-- A part that is no handle of an entity with the name of a builtin type. -/
def IsFreePart (t : SymbolTable) : TypeRef → Prop
  | .entity _ id => ∀ e, t.entity? id = some e → TypeRef.IsFreeName e.key
  | _ => True

/-- What is known of a table after linking. -/
structure Resolved (t : SymbolTable) : Prop where
  names : ∀ name id, t.lookup? name = some (.type id) ↔ ∃ e, t.entity? id = some e ∧ e.key = name
  declared : ∀ x e, t.entity? x = some e →
    e.identity.template = none ∧ e.identity.name = displayName e.key ∧ e.events = []
  types : ∀ x e, t.isInUse x = true → t.entity? x = some e → ∀ ty ∈ e.types, t.Linked ty.2 ∧
    ((∃ kind id, ty.2 = .entity kind id) ∨ ty.2.Everywhere t.IsFreePart)
  parents : ∀ x e p, t.isInUse x = true → t.entity? x = some e → e.parent? = some p →
    ∃ y, p = .entity e.kind y ∧ t.isInUse y = true ∧ t.kind? y = some e.kind
  interfaces : ∀ x, t.kind? x = some .interface → t.isInUse x = true
  acyclic : ∀ x, t.isInUse x = true → ¬ t.OnCycle x
  promises : t.promises = .empty

end SymbolTable

/-! ## Linking resolves -/

theorem SymbolTable.IsFreePart.withParts {t : SymbolTable} {s : TypeRef} (h : t.IsFreePart s)
    (us : List TypeRef) : t.IsFreePart (s.withParts us) := by
  exact TypeRef.holds_withParts h (fun _ => trivial) (fun _ _ => trivial) (fun _ _ _ h => h)
    (fun _ => trivial) (fun _ => trivial) us

theorem TypeRef.isFreePart_of_written {t : SymbolTable} {s : TypeRef}
    (h : TypeRef.IsWrittenPart s) : t.IsFreePart s := by
  cases s with
  | entity _ _ => exact h.elim
  | _ => trivial

/-- A written type stands for one in which handles stand for names that are none of
a builtin type. -/
theorem Expands.free {t₀ : SymbolTable} (ht₀ : t₀.Declared) {t u : TypeRef} (h : Expands t₀ t u)
    (ht : t.Everywhere TypeRef.IsWrittenPart) : u.Everywhere t₀.IsFreePart := by
  induction h with
  | @type name id kind lookup _ =>
      refine TypeRef.everywhere_iff.mpr ⟨fun e he => ?_, by simp [TypeRef.parts]⟩
      obtain ⟨e', he', hkey⟩ := (ht₀.types name id).mp lookup
      obtain rfl := Option.some.inj (he.symm.trans he')
      rw [hkey]
      exact ht.self
  | typedef _ body _ ih => exact ih (ht₀.bodies _ _ body)
  | @parts t us _ length each ih =>
      refine TypeRef.everywhere_withParts length ?_ fun u hu => ?_
      · exact (TypeRef.isFreePart_of_written ht.self).withParts us
      · obtain ⟨s, hs, hfree⟩ := forall₂_right (forall₂_of_zip
          (R := fun s u => s.Everywhere TypeRef.IsWrittenPart → u.Everywhere t₀.IsFreePart)
          length ih) u hu
        exact hfree (ht.part hs)

/-- A written type without names is one without handles, and what a bare name stands
for may be a bare handle. -/
theorem Unfolds.free {t₀ t : SymbolTable} (ht₀ : t₀.Declared) {ty u : TypeRef}
    (h : Unfolds t₀ ty u) (hty : ty.IsWritten) (hu : t.Linked u) :
    (∃ kind id, u = .entity kind id) ∨ u.Everywhere t₀.IsFreePart := by
  rcases h with rfl | h
  · rcases hty with hwritten | ⟨name, rfl⟩
    · exact .inr (hwritten.imp fun _ => TypeRef.isFreePart_of_written)
    · exact hu.self.elim
  · rcases hty with hwritten | ⟨name, rfl⟩
    · exact .inr (h.free ht₀ hwritten)
    · cases h with
      | type _ _ => exact .inl ⟨_, _, rfl⟩
      | typedef _ body expands => exact .inr (expands.free ht₀ (ht₀.bodies _ _ body))
      | parts head _ _ => cases head

/-- Every type of an entity in use comes from a written one. -/
theorem Linker.Linking.written {t₀ : SymbolTable} {Root : EntityId → Prop} {l : Linker}
    (ht₀ : t₀.Declared) (h : Linking t₀ Root l) {x : EntityId} {e : Entity}
    (hused : l.table.isInUse x = true) (he : l.table.entity? x = some e)
    {ty : Location × TypeRef} (hty : ty ∈ e.types) :
    ∃ ty₀ : TypeRef, ty₀.IsWritten ∧ Unfolds t₀ ty₀ ty.2 := by
  obtain ⟨e₀, he₀⟩ := h.entity_before he
  obtain ⟨e', he', hrebuilt⟩ := h.used x e₀ hused he₀
  obtain rfl := Option.some.inj (he'.symm.trans he)
  obtain ⟨ty₀, hty₀, _, hunfolds⟩ := hrebuilt.source hty
  obtain ⟨y, e'', _, he'', hty''⟩ := SymbolTable.mem_types_placed he₀ hty₀
  exact ⟨ty₀.2, (ht₀.entities y e'' he'').types ty₀ hty'', hunfolds⟩

/-- A table that was linked without errors is resolved. -/
theorem Linker.Finished.resolved {t₀ : SymbolTable} {l : Linker} (ht₀ : t₀.Declared)
    (h : l.Finished t₀) : l.table.Resolved := by
  have hidentity : ∀ x e, l.table.entity? x = some e →
      ∃ e₀, t₀.entity? x = some e₀ ∧ e.identity = e₀.identity ∧ e.events = e₀.events := by
    intro x e he
    obtain ⟨e₀, he₀⟩ := h.linking.entity_before he
    obtain ⟨e', he', _, hidentity, hevents, _⟩ := h.linking.entity he₀
    obtain rfl := Option.some.inj (he'.symm.trans he)
    exact ⟨e₀, he₀, hidentity, hevents⟩
  have hkey : ∀ x e, l.table.entity? x = some e → ∃ e₀, t₀.entity? x = some e₀ ∧ e.key = e₀.key := by
    intro x e he
    obtain ⟨e₀, he₀, hidentity, _⟩ := hidentity x e he
    exact ⟨e₀, he₀, congrArg Identity.idl hidentity⟩
  refine
    { names := fun name id => ?_
      declared := fun x e he => ?_
      types := fun x e hused he ty hty => ?_
      parents := fun x e p hused he hp => h.parent ht₀ hused he hp
      interfaces := fun x hkind => ?_
      acyclic := fun x hused hcycle => (h.done x hused).acyclic
        ((SymbolTable.onCycle_congr (h.linking.parentOf?_eq ht₀)).mp hcycle)
      promises := h.linking.promises.trans ht₀.promises }
  · rw [h.linking.lookup?_eq, ht₀.types]
    constructor
    · rintro ⟨e₀, he₀, rfl⟩
      obtain ⟨e, he, _, hidentity, _⟩ := h.linking.entity he₀
      exact ⟨e, he, congrArg Identity.idl hidentity⟩
    · rintro ⟨e, he, rfl⟩
      obtain ⟨e₀, he₀, hkey⟩ := hkey id e he
      exact ⟨e₀, he₀, hkey.symm⟩
  · obtain ⟨e₀, he₀, hidentity, hevents⟩ := hidentity x e he
    have hdeclared := ht₀.entities x e₀ he₀
    rw [Entity.key, hidentity, hevents]
    exact ⟨hdeclared.template, hdeclared.name, hdeclared.events⟩
  · have hlinked := (h.done x hused).types e he ty hty
    obtain ⟨ty₀, hwritten, hunfolds⟩ := h.linking.written ht₀ hused he hty
    refine ⟨hlinked, (hunfolds.free ht₀ hwritten hlinked).imp_right fun hfree => ?_⟩
    refine hfree.imp fun s hs => ?_
    cases s with
    | entity kind id =>
        intro e he
        obtain ⟨e₀, he₀, hkey⟩ := hkey id e he
        rw [hkey]
        exact hs e₀ he₀
    | _ => trivial
  · rw [h.linking.kind?_eq, SymbolTable.kind?_eq_some] at hkind
    exact h.roots x ((t₀.mem_idsOf x).mpr hkind)

end IdlModel
