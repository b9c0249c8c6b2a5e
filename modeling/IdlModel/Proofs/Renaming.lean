import IdlModel.Proofs.LinkState
import IdlModel.Proofs.Outlines

/-!
# Renaming

The last two stages change names and what is shown, and nothing that a type or
a handle depends on.

*Entities.*  An entity is a *renaming* of another one if the two have the same
kind, IDL name, parent and types.  It may have new events, for interfaces.

*Tables.*  A table is a renaming if its entities are, each under its old handle.
-/

namespace IdlModel

/-! ## Entities -/

/-- Entities that differ in names, in what a script overrides and in new events
only.  The types of new events satisfy `P`. -/
structure Entity.Renamed (P : EntityId → Prop) (e e' : Entity) : Prop where
  kind : e'.kind = e.kind
  key : e'.key = e.key
  template : e'.identity.template = e.identity.template
  parent : e'.parent? = e.parent?
  types : e'.types = e.types
  events : ∀ v ∈ e'.events, v ∈ e.events ∨ P v.type

namespace Entity.Renamed

variable {P : EntityId → Prop} {e e' e'' : Entity}

theorem refl (e : Entity) : e.Renamed P e := ⟨rfl, rfl, rfl, rfl, rfl, fun _ hv => .inl hv⟩

theorem trans (h : e.Renamed P e') (h' : e'.Renamed P e'') : e.Renamed P e'' where
  kind := h'.kind.trans h.kind
  key := h'.key.trans h.key
  template := h'.template.trans h.template
  parent := h'.parent.trans h.parent
  types := h'.types.trans h.types
  events v hv := (h'.events v hv).elim (h.events v) .inr

/-- An entity of the same outline is a renaming. -/
theorem of_outline (h : e'.outline = e.outline) (hevents : ∀ v ∈ e'.events, v ∈ e.events ∨ P v.type) :
    e.Renamed P e' where
  kind := Entity.kind_eq_of_outline h
  key := Entity.key_eq_of_outline h
  template := Entity.template_eq_of_outline h
  parent := Entity.parent?_eq_of_outline h
  types := Entity.types_eq_of_outline h
  events := hevents

end Entity.Renamed

/-! ## Tables -/

/-- Tables whose entities differ in names only. -/
structure SymbolTable.Renamed (t t' : SymbolTable) : Prop where
  size : t'.size = t.size
  names : t'.names = t.names
  marks : ∀ x, t'.isInUse x = t.isInUse x
  entities : ∀ x e, t.entity? x = some e →
    ∃ e', t'.entity? x = some e' ∧ e.Renamed (fun y => t.kind? y = some .interface) e'

namespace SymbolTable.Renamed

variable {t t' t'' : SymbolTable} {x : EntityId}

/-- No entity has come. -/
theorem entity_before (h : t.Renamed t') {e' : Entity} (he' : t'.entity? x = some e') :
    ∃ e, t.entity? x = some e ∧ e.Renamed (fun y => t.kind? y = some .interface) e' := by
  obtain ⟨e, he⟩ := entity?_of_lt (h.size ▸ lt_of_entity? he')
  obtain ⟨e₁, he₁, hrenamed⟩ := h.entities x e he
  obtain rfl := Option.some.inj (he₁.symm.trans he')
  exact ⟨e, he, hrenamed⟩

/-- A view that a renaming of an entity keeps. -/
theorem map_entity? {α : Type} (h : t.Renamed t') {f : Entity → α}
    (hf : ∀ {e e' : Entity} {P : EntityId → Prop}, e.Renamed P e' → f e' = f e) (x : EntityId) :
    (t'.entity? x).map f = (t.entity? x).map f := by
  cases he : t.entity? x with
  | some e =>
      obtain ⟨e', he', hrenamed⟩ := h.entities x e he
      rw [he', Option.map_some, Option.map_some, hf hrenamed]
  | none =>
      cases he' : t'.entity? x with
      | none => rfl
      | some e' =>
          obtain ⟨e, he₁, _⟩ := h.entity_before he'
          cases he.symm.trans he₁

theorem kind?_eq (h : t.Renamed t') (x : EntityId) : t'.kind? x = t.kind? x :=
  h.map_entity? Entity.Renamed.kind x

theorem parentOf?_eq (h : t.Renamed t') (x : EntityId) : t'.parentOf? x = t.parentOf? x := by
  refine SymbolTable.parentOf?_congr h.names (fun x => ?_) x
  exact h.map_entity? (fun hrenamed => by rw [hrenamed.kind, hrenamed.parent]) x

theorem ancestors_eq (h : t.Renamed t') (x : EntityId) : t'.ancestors x = t.ancestors x :=
  SymbolTable.ancestors_congr h.parentOf?_eq h.size x

theorem linked (h : t.Renamed t') {ref : TypeRef} (hlinked : t.Linked ref) : t'.Linked ref :=
  hlinked.mono fun x hused => ⟨(h.marks x).trans hused, h.kind?_eq x⟩

theorem trans (h : t.Renamed t') (h' : t'.Renamed t'') : t.Renamed t'' where
  size := h'.size.trans h.size
  names := h'.names.trans h.names
  marks x := (h'.marks x).trans (h.marks x)
  entities x e he := by
    obtain ⟨e₁, he₁, hrenamed⟩ := h.entities x e he
    obtain ⟨e₂, he₂, hrenamed'⟩ := h'.entities x e₁ he₁
    simp only [h.kind?_eq] at hrenamed'
    exact ⟨e₂, he₂, hrenamed.trans hrenamed'⟩

end SymbolTable.Renamed

end IdlModel
