import IdlModel.Proofs.LinkRun

/-!
# Linked types

What the linker makes of the types of an entity in use, if it reports no error.

*Expansion.*  Every type becomes its expansion, that is, the one type that it stands
for.  Expansion is told by the table before linking.  So it does not matter that
typedefs are replaced while the linker runs.

*Order.*  All of this is known of every run that links some entities one after the
other.  An entity that is in use behind two such runs is the same in both.
-/

namespace IdlModel

open Syntax (Document)

/-! ## Expansion -/

/-- The reference `u` is the one type that `t` stands for. -/
def IsExpansion (t₀ : SymbolTable) (t u : TypeRef) : Prop := ∀ v, Expands t₀ t v ↔ v = u

section Expansion

variable {t₀ t' : SymbolTable} {t u v : TypeRef}

theorem Expands.isExpansion (h : Expands t₀ t u) : IsExpansion t₀ t u := by
  intro v
  constructor
  · intro hv
    exact hv.det h
  · rintro rfl
    exact h

/-- A type without names stands for itself. -/
theorem Expands.of_nameless (h : t.Everywhere fun s => s.isName = false) : Expands t₀ t t := by
  induction t using TypeRef.partsInduction with
  | step t ih =>
    have hparts : List.Forall₂ (Expands t₀) t.parts t.parts :=
      List.forall₂_same.mpr fun u hu => ih u hu (h.part hu)
    have hwhole := Expands.ofParts h.self hparts
    rwa [TypeRef.withParts_parts] at hwhole

theorem SymbolTable.Linked.nameless (h : t'.Linked u) : u.Everywhere fun s => s.isName = false := by
  refine h.imp fun s hs => ?_
  cases s with
  | unlinked _ => exact hs.elim
  | _ => rfl

/-- What is linked is not only unfolded but expanded. -/
theorem Unfolds.expands_of_linked (h : Unfolds t₀ t u) (hu : t'.Linked u) : Expands t₀ t u := by
  rcases h with rfl | h
  · exact .of_nameless hu.nameless
  · exact h

end Expansion

/-! ## Own types -/

namespace Entity

/-- The types of an entity, but for those of inherited members. -/
def ownTypes (e : Entity) : List (Location × TypeRef) := (e.setInherited []).types

variable {R : TypeRef → TypeRef → Prop} {e e' : Entity}

theorem mem_types_of_mem_ownTypes {ty : Location × TypeRef} (h : ty ∈ e.ownTypes) :
    ty ∈ e.types := by
  rcases mem_types_setInherited h with h | ⟨_, hd, _⟩
  · exact h
  · cases hd

theorem ownTypes_placed (t : SymbolTable) (x : EntityId) (e : Entity) :
    (t.placed x e).ownTypes = e.ownTypes := by
  unfold SymbolTable.placed
  split
  next => rfl
  next => cases e <;> rfl

/-- Only dictionaries have inherited members. -/
theorem ownTypes_eq_types (h : e.kind ≠ .dictionary) : e.ownTypes = e.types := by
  cases e with
  | dictionary _ => exact absurd rfl h
  | _ => rfl

/-- The own types of a rebuilt entity are rebuilt one by one. -/
theorem Rebuilt.ownTypes (h : e.Rebuilt R e') :
    List.Forall₂ (fun x y => y.1 = x.1 ∧ R x.2 y.2) e.ownTypes e'.ownTypes := by
  by_cases hkind : e.kind = .dictionary
  · cases e with
    | dictionary d =>
        obtain ⟨d', rfl, _, hmembers, _⟩ := rebuilt_dictionary.mp h
        have htypes := (Field.forall₂_rebuilt.mp hmembers).2
        rw [← List.append_nil d.members, ← List.append_nil d'.members] at htypes
        exact htypes
    | _ => cases hkind
  · have hkind' : e'.kind ≠ .dictionary := by rwa [kind_eq_of_blank h.blank]
    rw [ownTypes_eq_types hkind, ownTypes_eq_types hkind']
    exact h.types

end Entity

/-! ## Entities in use -/

namespace Linker

variable {t₀ : SymbolTable} {Root Root' : EntityId → Prop} {l l' : Linker} {x : EntityId} {e : Entity}

/-- An entity that is done has its place, and all its types are expanded. -/
theorem Linking.expanded (h : Linking t₀ Root l) (hused : l.table.isInUse x = true)
    (hdone : Done t₀ l x) (he : l.table.entity? x = some e) :
    ∃ e₀, t₀.entity? x = some e₀ ∧ (t₀.placed x e₀).Rebuilt (Expands t₀) e := by
  obtain ⟨e₀, he₀⟩ := h.entity_before he
  obtain ⟨e', he', hrebuilt⟩ := h.used x e₀ hused he₀
  obtain rfl := Option.some.inj (he'.symm.trans he)
  refine ⟨e₀, he₀, hrebuilt.blank, ?_⟩
  have hlinked := (List.forall₂_and_left _ _).mpr
    ⟨fun ty hty => hdone.types e' he ty hty, hrebuilt.types.flip⟩
  exact (hlinked.imp fun _ _ hty => ⟨hty.2.1, hty.2.2.expands_of_linked hty.1⟩).flip

/-- Two runs make the same of an entity. -/
theorem Linking.entity_eq (h : Linking t₀ Root l) (h' : Linking t₀ Root' l')
    (hused : l.table.isInUse x = true) (hused' : l'.table.isInUse x = true)
    (hdone : Done t₀ l x) (hdone' : Done t₀ l' x) :
    l'.table.entity? x = l.table.entity? x := by
  obtain ⟨e, he⟩ := SymbolTable.entity?_of_lt (SymbolTable.lt_of_isInUse hused)
  obtain ⟨e', he'⟩ := SymbolTable.entity?_of_lt (SymbolTable.lt_of_isInUse hused')
  obtain ⟨e₀, he₀, hrebuilt⟩ := h.expanded hused hdone he
  obtain ⟨d₀, hd₀, hrebuilt'⟩ := h'.expanded hused' hdone' he'
  obtain rfl := Option.some.inj (hd₀.symm.trans he₀)
  have htypes : e'.types = e.types := eq_of_forall₂ <|
    forall₂_join (fun _ _ _ hty hty' => Prod.ext (hty.1.trans hty'.1.symm) (hty.2.det hty'.2))
      hrebuilt'.types hrebuilt.types
  have hsame := Entity.eq_of_blank (hrebuilt'.blank.trans hrebuilt.blank.symm) htypes
  rw [he, he', hsame]

end Linker

/-! ## Runs -/

/-- Linking some entities in some order, if no error is reported. -/
theorem linkEach_spec {c c' : Compilation} {ids : List EntityId} {u : Unit}
    (hc : c.table.Declared) (h : withLinker (ids.forM Linker.link) c = .ok u c')
    (hclean : c'.Clean) :
    ∃ l : Linker, l.compilation = c' ∧ Linker.Linking c.table (· ∈ ids) l ∧
      ∀ x, l.table.isInUse x = true → Linker.Done c.table l x := by
  obtain ⟨l, hrun, rfl⟩ := withLinker_ok.mp h
  obtain ⟨hlinking, hahead, _⟩ := Linker.forM_link_spec hc
    (Linker.Linking.start hc rfl) (fun _ hid => .root hid) hrun hclean
  exact ⟨l, rfl, hlinking, fun x hx => hahead.done x hx (hc.unused x)⟩

/-- Behind linking every own type of an entity in use is the expansion of the type
that was declared.  If entities are linked in another order, or other ones, the
entities that come into use become the same. -/
theorem linked_types_expanded {documents : List Document} {settings : Settings}
    {merged linked : Compilation} (h : mergeDocuments documents { settings } = .ok () merged)
    (hlink : runStage linkInterfaces .link merged = .ok () linked) :
    (∀ x e, linked.table.isInUse x = true → linked.table.entity? x = some e →
      ∃ e₀, merged.table.entity? x = some e₀ ∧
        List.Forall₂ (fun declared type => type.1 = declared.1 ∧
          IsExpansion merged.table declared.2 type.2) e₀.ownTypes e.ownTypes) ∧
    ∀ (ids : List EntityId) other, runStage (withLinker (ids.forM Linker.link)) .link merged = .ok () other →
      ∀ x, linked.table.isInUse x = true → other.table.isInUse x = true →
        other.table.entity? x = linked.table.entity? x := by
  have hdeclared := mergeDocuments_declared h
  obtain ⟨hrun, hclean⟩ := runStage_ok.mp hlink
  obtain ⟨l, rfl, hfinished⟩ := linkInterfaces_spec hdeclared hrun hclean
  refine ⟨fun x e hused he => ?_, fun ids other hother x hused hused' => ?_⟩
  · obtain ⟨e₀, he₀, hrebuilt⟩ :=
      hfinished.linking.expanded hused (hfinished.done x hused) he
    have htypes := hrebuilt.ownTypes
    rw [Entity.ownTypes_placed] at htypes
    exact ⟨e₀, he₀, htypes.imp fun _ _ hty => ⟨hty.1, hty.2.isExpansion⟩⟩
  · obtain ⟨hrun', hclean'⟩ := runStage_ok.mp hother
    obtain ⟨l', rfl, hlinking', hdone'⟩ := linkEach_spec hdeclared hrun' hclean'
    exact hfinished.linking.entity_eq hlinking' hused hused' (hfinished.done x hused)
      (hdone' x hused')

/-- The definitions
`typedef unsigned long Count;`, `typedef sequence<Count> Counts;`,
`dictionary Span { Count length; };`,
`dictionary Sample : Span { Counts counts; Meter? source; };`,
`dictionary Spare { Span span; };` and
`interface Meter { Promise<Sample> sample(Count size); };`. -/
def meter : Document :=
  { name := "meter.idl"
    definitions :=
      [.typedef { name := "Count", type := .named "unsigned long" },
      .typedef { name := "Counts", type := .sequence (.named "Count") },
      .dictionary { name := "Span", members := [{ name := "length", type := .named "Count" }] },
      .dictionary
        { name := "Sample"
          inherits := some "Span"
          members :=
            [{ name := "counts", type := .named "Counts" },
            { name := "source", type := .nullable (.named "Meter") }] },
      .dictionary { name := "Spare", members := [{ name := "span", type := .named "Span" }] },
      .interface
        { name := "Meter"
          members :=
            [.operation
              { name := some "sample"
                returnType := .generic "Promise" [.named "Sample"]
                args := [{ name := "size", type := .named "Count" }] }] }] }

theorem meter_links : ∃ merged linked, mergeDocuments [meter] { settings := {} } = .ok () merged ∧
    runStage linkInterfaces .link merged = .ok () linked := by
  have hfinishes :
      (answer? ((mergeDocuments [meter] >>= fun _ => runStage linkInterfaces .link)
        { settings := {} })).map (fun _ => true) = some true := by decide +kernel
  obtain ⟨⟨⟩, linked, hstages, _⟩ := ok_of_answer? hfinishes
  obtain ⟨⟨⟩, merged, hmerge, hlink⟩ := bind_ok.mp hstages
  exact ⟨merged, linked, hmerge, hlink⟩

theorem linked_types_expanded_meter :
    ∃ merged linked, mergeDocuments [meter] { settings := {} } = .ok () merged ∧
      runStage linkInterfaces .link merged = .ok () linked ∧
      (∀ x e, linked.table.isInUse x = true → linked.table.entity? x = some e →
        ∃ e₀, merged.table.entity? x = some e₀ ∧
          List.Forall₂ (fun declared type => type.1 = declared.1 ∧
            IsExpansion merged.table declared.2 type.2) e₀.ownTypes e.ownTypes) ∧
      ∀ (ids : List EntityId) other, runStage (withLinker (ids.forM Linker.link)) .link merged = .ok () other →
        ∀ x, linked.table.isInUse x = true → other.table.isInUse x = true →
          other.table.entity? x = linked.table.entity? x := by
  obtain ⟨merged, linked, hmerge, hlink⟩ := meter_links
  exact ⟨merged, linked, hmerge, hlink, linked_types_expanded hmerge hlink⟩

end IdlModel
