import IdlModel.Proofs.Growth
import IdlModel.Proofs.Placing

/-!
# The state of the linker

What holds of the linker while it runs, as long as it reports no error.  A state
without errors is *clean*.

*Linking.*  `Linking` relates a clean state to the table before linking.  An
entity that is not in use is as it was.  One that is in use has its place, and
each of its types is as it was or expanded.  So parents, and with them ancestors
and lineages, are the same as before.

*Done.*  An entity is done if its types are linked, its parent is in use and it
is on no cycle.

*Ahead.*  A state is ahead of another one if nothing that was in use has changed
and what is newly in use is done.  An entity that is being visited is in use and
not yet done, so no visit that starts from it touches it.
-/

namespace IdlModel

/-! ## Linked types -/

namespace SymbolTable

variable {t t' : SymbolTable}

/-- A part of a linked type: no name and no placeholder, a known generic type, or
a handle of an entity of the kind that is in use. -/
def IsLinkedPart (t : SymbolTable) : TypeRef → Prop
  | .unlinked _ => False
  | .placeholder _ => False
  | .parametrized name _ => name ∈ knownGenerics
  | .entity kind id => t.kind? id = some kind ∧ t.isInUse id = true
  | _ => True

/-- A linked type. -/
def Linked (t : SymbolTable) (ref : TypeRef) : Prop := ref.Everywhere t.IsLinkedPart

theorem IsLinkedPart.withParts {ref : TypeRef} (h : t.IsLinkedPart ref) (us : List TypeRef) :
    t.IsLinkedPart (ref.withParts us) := by
  exact TypeRef.holds_withParts h (fun _ => trivial) (fun _ _ => trivial) (fun _ _ _ h => h)
    (fun _ => trivial) (fun _ => trivial) us

theorem Linked.mono {ref : TypeRef} (h : t.Linked ref)
    (hused : ∀ x, t.isInUse x = true → t'.isInUse x = true ∧ t'.kind? x = t.kind? x) :
    t'.Linked ref := by
  refine h.imp fun s hs => ?_
  cases s with
  | entity kind id => exact ⟨(hused id hs.2).2.trans hs.1, (hused id hs.2).1⟩
  | _ => exact hs

end SymbolTable

namespace Linker

/-! ## Clean states -/

/-- The number of errors. -/
def errors (l : Linker) : Nat := l.compilation.errors

/-- No error was reported. -/
def Clean (l : Linker) : Prop := l.compilation.Clean

theorem Clean.of_le {l l' : Linker} (h : l'.Clean) (hle : l.errors ≤ l'.errors) : l.Clean :=
  Compilation.Clean.of_le h hle

@[simp] theorem table_withTable (l : Linker) (t : SymbolTable) : (l.withTable t).table = t := rfl

@[simp] theorem visits_withTable (l : Linker) (t : SymbolTable) :
    (l.withTable t).visits = l.visits := rfl

/-! ## The invariant -/

section Invariant

variable (t₀ : SymbolTable) (Root : EntityId → Prop)

/-- What holds of a clean state.  `t₀` is the table before linking. -/
structure Linking (l : Linker) : Prop where
  names : l.table.names = t₀.names
  size : l.table.size = t₀.size
  promises : l.table.promises = t₀.promises
  unused : ∀ x, l.table.isInUse x = false → l.table.entity? x = t₀.entity? x
  used : ∀ x e₀, l.table.isInUse x = true → t₀.entity? x = some e₀ →
    ∃ e, l.table.entity? x = some e ∧ (t₀.placed x e₀).Rebuilt (Unfolds t₀) e
  bodies : ∀ (i : Nat) d₀, t₀.typedefs[i]? = some d₀ →
    ∃ d, l.table.typedefs[i]? = some d ∧ Unfolds t₀ d₀.type d.type
  reached : ∀ x, l.table.isInUse x = true → Reached t₀ Root x
  counted : l.visits + l.table.unused = t₀.size

/-- An entity with linked types and its parent in use, on no cycle. -/
structure Done (l : Linker) (x : EntityId) : Prop where
  types : ∀ e, l.table.entity? x = some e → ∀ ty ∈ e.types, l.table.Linked ty.2
  parent : ∀ e p, l.table.entity? x = some e → e.parent? = some p →
    ∃ y, p = .entity e.kind y ∧ t₀.HasParent x y
  used : ∀ y, t₀.HasParent x y → l.table.isInUse y = true
  acyclic : ¬ t₀.OnCycle x

/-- A state and a later one. -/
structure Ahead (l l' : Linker) : Prop where
  used : ∀ x, l.table.isInUse x = true → l'.table.isInUse x = true
  kept : ∀ x, l.table.isInUse x = true → l'.table.entity? x = l.table.entity? x
  done : ∀ x, l'.table.isInUse x = true → l.table.isInUse x = false → Done t₀ l' x

end Invariant

variable {t₀ : SymbolTable} {Root : EntityId → Prop} {l l' l'' : Linker} {x : EntityId}

/-! ### What a state knows of the table before -/

theorem Linking.start (ht₀ : t₀.Declared) {c : Compilation} (hc : c.table = t₀) :
    Linking t₀ Root { compilation := c } := by
  have htable : ({ compilation := c } : Linker).table = t₀ := hc
  have hunused : t₀.unused = t₀.size := by
    rw [SymbolTable.unused, List.countP_eq_length.mpr fun x _ => by simp [ht₀.unused x]]
    simp [SymbolTable.ids]
  constructor
  · rw [htable]
  · rw [htable]
  · rw [htable]
  · intro x _
    rw [htable]
  · intro x _ hused
    rw [htable, ht₀.unused] at hused
    cases hused
  · intro i d hd
    exact ⟨d, by rw [htable, hd], .refl t₀ _⟩
  · intro x hused
    rw [htable, ht₀.unused] at hused
    cases hused
  · rw [htable, hunused]
    exact Nat.zero_add _

/-- An entity of the table before is still there, with its kind and identity. -/
theorem Linking.entity (h : Linking t₀ Root l) {e₀ : Entity} (he₀ : t₀.entity? x = some e₀) :
    ∃ e, l.table.entity? x = some e ∧ e.kind = e₀.kind ∧ e.identity = e₀.identity ∧
      e.events = e₀.events ∧ List.Forall₂ (Field.Rebuilt (Unfolds t₀)) e₀.fields e.fields := by
  cases hused : l.table.isInUse x with
  | false =>
      refine ⟨e₀, (h.unused x hused).trans he₀, rfl, rfl, rfl, ?_⟩
      exact List.forall₂_same.mpr fun d _ => ⟨rfl, .refl t₀ d.type⟩
  | true =>
      obtain ⟨e, he, hrebuilt⟩ := h.used x e₀ hused he₀
      refine ⟨e, he, ?_, ?_, ?_, ?_⟩
      · rw [Entity.kind_eq_of_blank hrebuilt.blank, SymbolTable.kind_placed]
      · rw [Entity.identity_eq_of_blank hrebuilt.blank, SymbolTable.identity_placed]
      · rw [Entity.events_eq_of_blank hrebuilt.blank, SymbolTable.events_placed]
      · simpa using hrebuilt.fields

/-- No entity has come. -/
theorem Linking.entity_before (h : Linking t₀ Root l) {e : Entity}
    (he : l.table.entity? x = some e) : ∃ e₀, t₀.entity? x = some e₀ :=
  SymbolTable.entity?_of_lt (h.size ▸ SymbolTable.lt_of_entity? he)

theorem Linking.kind?_eq (h : Linking t₀ Root l) (x : EntityId) :
    l.table.kind? x = t₀.kind? x := by
  cases he₀ : t₀.entity? x with
  | some e₀ =>
      obtain ⟨e, he, hkind, _⟩ := h.entity he₀
      rw [SymbolTable.kind?, SymbolTable.kind?, he, he₀, Option.map_some, Option.map_some, hkind]
  | none =>
      cases he : l.table.entity? x with
      | none => rw [SymbolTable.kind?, SymbolTable.kind?, he, he₀]
      | some e =>
          obtain ⟨e₀, he₀'⟩ := h.entity_before he
          rw [he₀] at he₀'
          cases he₀'

theorem Linking.lookup?_eq (h : Linking t₀ Root l) (name : String) :
    l.table.lookup? name = t₀.lookup? name := by
  rw [SymbolTable.lookup?, SymbolTable.lookup?, h.names]

/-- Placing an entity does not change its parent. -/
theorem Linking.parentOf?_eq (ht₀ : t₀.Declared) (h : Linking t₀ Root l) (x : EntityId) :
    l.table.parentOf? x = t₀.parentOf? x := by
  cases he₀ : t₀.entity? x with
  | none =>
      cases he : l.table.entity? x with
      | none => rw [SymbolTable.parentOf?, SymbolTable.parentOf?, he, he₀]; rfl
      | some e =>
          obtain ⟨e₀, he₀'⟩ := h.entity_before he
          rw [he₀] at he₀'
          cases he₀'
  | some e₀ =>
      have hlookup := SymbolTable.lookupType?_congr h.names
      have hsame : ∀ e, l.table.entity? x = some e → e.parent? = e₀.parent? → e.kind = e₀.kind →
          l.table.parentOf? x = t₀.parentOf? x := by
        intro e he hparent hkind
        rw [SymbolTable.parentOf?_eq he, SymbolTable.parentOf?_eq he₀, hparent, hkind]
        simp only [hlookup, h.kind?_eq]
      cases hused : l.table.isInUse x with
      | false => exact hsame e₀ ((h.unused x hused).trans he₀) rfl rfl
      | true =>
          obtain ⟨e, he, hrebuilt⟩ := h.used x e₀ hused he₀
          have hparent := Entity.parent?_eq_of_blank hrebuilt.blank
          have hkind := Entity.kind_eq_of_blank hrebuilt.blank
          cases hp : t₀.parentOf? x with
          | none =>
              rw [← hp]
              refine hsame e he ?_ ?_
              · rw [hparent, SymbolTable.placed_of_no_parent hp]
              · rw [hkind, SymbolTable.kind_placed]
          | some p =>
              rw [SymbolTable.parentOf?_eq he, hparent, ht₀.parent?_placed he₀ hp]
              rfl

/-- The members that a lineage has by now. -/
theorem Linking.lineageFields (ht₀ : t₀.Declared) (h : Linking t₀ Root l) (x : EntityId) :
    List.Forall₂ (Field.Rebuilt (Unfolds t₀)) (t₀.lineageFields x) (l.table.lineageFields x) := by
  refine SymbolTable.lineageFields_rebuilt (h.parentOf?_eq ht₀) h.size (fun x => ?_) x
  cases he₀ : t₀.entity? x with
  | some e₀ =>
      obtain ⟨e, he, _, _, _, hfields⟩ := h.entity he₀
      simpa [he] using hfields
  | none =>
      cases he : l.table.entity? x with
      | none => exact .nil
      | some e =>
          obtain ⟨e₀, he₀'⟩ := h.entity_before he
          rw [he₀] at he₀'
          cases he₀'

/-- An entity that is placed now is placed as before, with members that may be
expanded. -/
theorem Linking.placed_rebuilt (ht₀ : t₀.Declared) (h : Linking t₀ Root l) (x : EntityId)
    (e : Entity) : (t₀.placed x e).Rebuilt (Unfolds t₀) (l.table.placed x e) := by
  rw [SymbolTable.placed, SymbolTable.placed, h.parentOf?_eq ht₀]
  cases t₀.parentOf? x with
  | none => exact .refl (.refl t₀) e
  | some p => exact Entity.rebuilt_setInherited (.refl t₀) _ (h.lineageFields ht₀ p)

/-- A type of an entity in use comes from one that it or an ancestor declares. -/
theorem Linking.declares (h : Linking t₀ Root l) {e : Entity} (hused : l.table.isInUse x = true)
    (he : l.table.entity? x = some e) {ty : Location × TypeRef} (hty : ty ∈ e.types) :
    ∃ y e₀, Reached t₀ Root y ∧ t₀.entity? y = some e₀ ∧
      ∃ ty₀ ∈ e₀.types, Unfolds t₀ ty₀.2 ty.2 := by
  obtain ⟨e₀, he₀⟩ := h.entity_before he
  obtain ⟨e', he', hrebuilt⟩ := h.used x e₀ hused he₀
  cases he.symm.trans he'
  obtain ⟨ty₀, hty₀, _, hunfolds⟩ := hrebuilt.source hty
  obtain ⟨y, e'', hy, he'', hty''⟩ := SymbolTable.mem_types_placed he₀ hty₀
  exact ⟨y, e'', (h.reached x hused).ancestor hy, he'', ty₀, hty'', hunfolds⟩

/-- What is known of the types of an entity in use. -/
theorem Linking.types (ht₀ : t₀.Declared) (h : Linking t₀ Root l) {e : Entity}
    (hused : l.table.isInUse x = true) (he : l.table.entity? x = some e) :
    ∀ ty ∈ e.types, t₀.Sound ty.2 ∧ ∀ y, Mentions t₀ ty.2 y → Reached t₀ Root y := by
  intro ty hty
  obtain ⟨y, e₀, hy, he₀, ty₀, hty₀, hunfolds⟩ := h.declares hused he hty
  refine ⟨hunfolds.sound ht₀ ?_, fun z hz => ?_⟩
  · exact SymbolTable.sound_of_isWritten ((ht₀.entities y e₀ he₀).types ty₀ hty₀)
  · exact .mention hy he₀ hty₀ (hunfolds.mentions hz)

/-! ### Later states -/

/-- What keeps an entity done. -/
theorem Done.mono (h : Done t₀ l x) (hentity : l'.table.entity? x = l.table.entity? x)
    (hused : ∀ y, l.table.isInUse y = true →
      l'.table.isInUse y = true ∧ l'.table.kind? y = l.table.kind? y) : Done t₀ l' x where
  types e he ty hty := (h.types e (hentity ▸ he) ty hty).mono hused
  parent e p he := h.parent e p (hentity ▸ he)
  used y hy := (hused y (h.used y hy)).1
  acyclic := h.acyclic

theorem Ahead.refl (l : Linker) : Ahead t₀ l l where
  used _ h := h
  kept _ _ := rfl
  done x h h' := by
    rw [h] at h'
    cases h'

theorem Ahead.kind?_eq (h : Ahead t₀ l l') (hx : l.table.isInUse x = true) :
    l'.table.kind? x = l.table.kind? x := by
  rw [SymbolTable.kind?, SymbolTable.kind?, h.kept x hx]

theorem Ahead.linked (h : Ahead t₀ l l') {ref : TypeRef} (hlinked : l.table.Linked ref) :
    l'.table.Linked ref :=
  hlinked.mono fun x hx => ⟨h.used x hx, h.kind?_eq hx⟩

theorem Ahead.trans (h : Ahead t₀ l l') (h' : Ahead t₀ l' l'') : Ahead t₀ l l'' where
  used x hx := h'.used x (h.used x hx)
  kept x hx := (h'.kept x (h.used x hx)).trans (h.kept x hx)
  done x hx hx' := by
    cases hmid : l'.table.isInUse x with
    | false => exact h'.done x hx hmid
    | true =>
        refine (h.done x hmid hx').mono (h'.kept x hmid) fun y hy => ?_
        exact ⟨h'.used y hy, h'.kind?_eq hy⟩

/-! ### Steps -/

/-- An entity comes into use and gets its place. -/
theorem Linking.enter (ht₀ : t₀.Declared) (h : Linking t₀ Root l)
    (hfree : l.table.isInUse x = false) {e : Entity} (he : l.table.entity? x = some e)
    (hreached : Reached t₀ Root x)
    (htable : l'.table = (l.table.mark x).set x (l.table.placed x e))
    (hvisits : l'.visits = l.visits + 1) : Linking t₀ Root l' := by
  have hlt := SymbolTable.lt_of_entity? he
  have hused : ∀ y, l'.table.isInUse y = true ↔ y = x ∨ l.table.isInUse y = true := by
    intro y
    rw [htable, SymbolTable.isInUse_set, SymbolTable.isInUse_mark hlt]
  have hself : l'.table.entity? x = some (l.table.placed x e) := by
    rw [htable, SymbolTable.entity?_set_self (by simpa using hlt)]
  have hother : ∀ y, y ≠ x → l'.table.entity? y = l.table.entity? y := by
    intro y hy
    rw [htable, SymbolTable.entity?_set_of_ne _ hy, SymbolTable.entity?_mark]
  constructor
  · rw [htable]
    exact h.names
  · rw [htable, SymbolTable.size_set, SymbolTable.size_mark, h.size]
  · rw [htable]
    exact h.promises
  · intro y hy
    have hne : ¬ (y = x ∨ l.table.isInUse y = true) := by
      rw [← hused, hy]
      exact Bool.false_ne_true
    rw [not_or, Bool.not_eq_true] at hne
    rw [hother y hne.1, h.unused y hne.2]
  · intro y e₀ hy he₀
    by_cases hyx : y = x
    · subst hyx
      refine ⟨_, hself, ?_⟩
      have hsame : e = e₀ := by
        rw [h.unused y hfree, he₀] at he
        exact (Option.some.inj he).symm
      rw [hsame]
      exact h.placed_rebuilt ht₀ y e₀
    · rw [hother y hyx]
      exact h.used y e₀ (((hused y).mp hy).resolve_left hyx) he₀
  · rw [htable]
    exact h.bodies
  · intro y hy
    rcases (hused y).mp hy with rfl | hy
    · exact hreached
    · exact h.reached y hy
  · have hcount := h.counted
    rw [SymbolTable.unused_mark hlt hfree] at hcount
    have hsame : l'.table.unused = (l.table.mark x).unused := by
      rw [htable]
      exact SymbolTable.unused_congr (by simp) (by simp)
    rw [hvisits, hsame]
    omega

/-- The types of an entity in use are expanded further. -/
theorem Linking.put (h : Linking t₀ Root l) (hused : l.table.isInUse x = true) {e e' : Entity}
    (he : l.table.entity? x = some e) (hrebuilt : e.Rebuilt (Unfolds t₀) e') :
    Linking t₀ Root (l.withTable (l.table.set x e')) := by
  have hlt := SymbolTable.lt_of_entity? he
  constructor
  · exact h.names
  · rw [table_withTable, SymbolTable.size_set, h.size]
  · exact h.promises
  · intro y hy
    rw [table_withTable, SymbolTable.isInUse_set] at hy
    have hne : y ≠ x := by
      rintro rfl
      rw [hused] at hy
      cases hy
    rw [table_withTable, SymbolTable.entity?_set_of_ne _ hne, h.unused y hy]
  · intro y e₀ hy he₀
    rw [table_withTable, SymbolTable.isInUse_set] at hy
    obtain ⟨e₁, he₁, hrebuilt₁⟩ := h.used y e₀ hy he₀
    by_cases hyx : y = x
    · subst hyx
      cases he.symm.trans he₁
      exact ⟨e', SymbolTable.entity?_set_self hlt e',
        hrebuilt₁.trans hrebuilt fun _ _ _ => Unfolds.trans⟩
    · exact ⟨e₁, by rw [table_withTable, SymbolTable.entity?_set_of_ne _ hyx, he₁], hrebuilt₁⟩
  · exact h.bodies
  · intro y hy
    rw [table_withTable, SymbolTable.isInUse_set] at hy
    exact h.reached y hy
  · have hsame : (l.table.set x e').unused = l.table.unused :=
      SymbolTable.unused_congr (by simp) (by simp)
    rw [visits_withTable, table_withTable, hsame, h.counted]

/-- A typedef is replaced by what it stands for. -/
theorem Linking.memo (h : Linking t₀ Root l) {i : Nat} {d₀ : Typedef}
    (hd₀ : t₀.typedefs[i]? = some d₀) {u : TypeRef} (hu : Expands t₀ d₀.type u) :
    Linking t₀ Root (l.withTable (l.table.setTypedef i u)) := by
  constructor
  · exact h.names
  · exact h.size
  · exact h.promises
  · exact h.unused
  · exact h.used
  · intro j d₁ hd₁
    obtain ⟨d, hd, hunfolds⟩ := h.bodies j d₁ hd₁
    rw [table_withTable, SymbolTable.typedefs_setTypedef]
    split
    next hij =>
      subst hij
      cases hd₀.symm.trans hd₁
      exact ⟨_, by rw [hd]; rfl, .inr hu⟩
    next => exact ⟨d, hd, hunfolds⟩
  · exact h.reached
  · exact h.counted

end Linker

end IdlModel
