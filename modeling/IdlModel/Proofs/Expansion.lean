import IdlModel.Proofs.Declaring

/-!
# Expansion

What a written type stands for.  A name of an entity stands for its handle, a
name of a typedef for what the typedef stands for, and every other reference is
expanded part by part.  The tables do not change here, so this is a relation
between types and not an action.

* `Expands.det` says that a type stands for one type at most.
* `Expands.idem` says that an expanded type stands for itself.
* `Expands.sound` says that handles point to entities of their kind.

While the linker runs, a type in the table is as it was declared or expanded
already.  `Unfolds` covers both.
-/

namespace IdlModel

namespace TypeRef

theorem isName_withParts (t : TypeRef) (us : List TypeRef) :
    (t.withParts us).isName = t.isName := by
  unfold withParts
  split <;> rfl

theorem isPromise_eq_true {t : TypeRef} :
    t.isPromise = true ↔ ∃ args, t = .parametrized "Promise" args := by
  cases t <;> simp [isPromise]

theorem isPromise_withParts (t : TypeRef) (us : List TypeRef) :
    (t.withParts us).isPromise = t.isPromise := by
  unfold withParts
  split <;> rfl

theorem entity?_withParts (t : TypeRef) (us : List TypeRef) :
    (t.withParts us).entity? = t.entity? := by
  unfold withParts
  split <;> rfl

theorem eq_of_entity? {u : TypeRef} {id : EntityId} (h : u.entity? = some id) :
    ∃ kind, u = .entity kind id := by
  cases u with
  | entity kind _ => exact ⟨kind, by rw [Option.some.inj h]⟩
  | _ => cases h

/-- A reference without parts has one shape of parts only. -/
theorem withParts_of_parts_eq_nil {t : TypeRef} (h : t.parts = []) {us : List TypeRef}
    (hus : us.length = t.parts.length) : t.withParts us = t := by
  obtain rfl : us = [] := List.length_eq_zero_iff.mp (by rw [hus, h]; rfl)
  rw [← h, withParts_parts]

end TypeRef

open TypeRef

/-- A type and what it stands for. -/
inductive Expands (t₀ : SymbolTable) : TypeRef → TypeRef → Prop
  /-- The name of an entity. -/
  | type {name : String} {id : EntityId} {kind : EntityKind}
      (lookup : t₀.lookup? name = some (.type id)) (kind_eq : t₀.kind? id = some kind) :
      Expands t₀ (.unlinked name) (.entity kind id)
  /-- The name of a typedef. -/
  | typedef {name : String} {i : Nat} {d : Typedef} {u : TypeRef}
      (lookup : t₀.lookup? name = some (.typedef i)) (body : t₀.typedefs[i]? = some d)
      (expands : Expands t₀ d.type u) : Expands t₀ (.unlinked name) u
  /-- Any other reference. -/
  | parts {t : TypeRef} {us : List TypeRef} (head : t.isName = false)
      (length : us.length = t.parts.length) (each : ∀ p ∈ t.parts.zip us, Expands t₀ p.1 p.2) :
      Expands t₀ t (t.withParts us)

namespace Expands

variable {t₀ : SymbolTable} {t u v : TypeRef}

theorem ofParts {us : List TypeRef} (head : t.isName = false)
    (each : List.Forall₂ (Expands t₀) t.parts us) : Expands t₀ t (t.withParts us) :=
  .parts head each.length_eq.symm fun _ hp => List.forall₂_zip each hp

theorem parts_inv (h : Expands t₀ t u) (head : t.isName = false) :
    ∃ us, u = t.withParts us ∧ List.Forall₂ (Expands t₀) t.parts us := by
  cases h with
  | type _ _ => cases head
  | typedef _ _ _ => cases head
  | parts _ length each =>
      exact ⟨_, rfl, List.forall₂_iff_zip.mpr ⟨length.symm, fun hp => each _ hp⟩⟩

/-- A reference that is no name and has no parts stands for itself. -/
theorem leaf (head : t.isName = false) (hparts : t.parts = []) : Expands t₀ t t := by
  have h : Expands t₀ t (t.withParts []) := ofParts head (by rw [hparts]; exact .nil)
  rwa [withParts_of_parts_eq_nil hparts (by rw [hparts])] at h

theorem leaf_inv (h : Expands t₀ t u) (head : t.isName = false) (hparts : t.parts = []) :
    u = t := by
  obtain ⟨us, rfl, hus⟩ := h.parts_inv head
  exact withParts_of_parts_eq_nil hparts hus.length_eq.symm

/-- A type stands for one type at most. -/
theorem det (h : Expands t₀ t u) (h' : Expands t₀ t v) : u = v := by
  induction h generalizing v with
  | type lookup kind_eq =>
      cases h' with
      | type lookup' kind_eq' =>
          cases lookup.symm.trans lookup'
          cases kind_eq.symm.trans kind_eq'
          rfl
      | typedef lookup' _ _ => cases lookup.symm.trans lookup'
      | parts head _ _ => cases head
  | typedef lookup body _ ih =>
      cases h' with
      | type lookup' _ => cases lookup.symm.trans lookup'
      | typedef lookup' body' expands' =>
          cases lookup.symm.trans lookup'
          cases body.symm.trans body'
          exact ih expands'
      | parts head _ _ => cases head
  | parts head length each ih =>
      obtain ⟨vs, rfl, hvs⟩ := h'.parts_inv head
      have hstep := forall₂_join (fun _ _ _ hdet h => hdet h)
        (forall₂_of_zip (R := fun t u => ∀ {v}, Expands t₀ t v → u = v) length ih) hvs
      rw [eq_of_forall₂ hstep]

/-- An expanded type stands for itself. -/
theorem idem (h : Expands t₀ t u) (h' : Expands t₀ u v) : v = u := by
  induction h generalizing v with
  | type _ _ => exact h'.leaf_inv rfl rfl
  | typedef _ _ _ ih => exact ih h'
  | @parts _ us head length each ih =>
      obtain ⟨vs, rfl, hvs⟩ := h'.parts_inv (by rw [isName_withParts, head])
      rw [parts_withParts length] at hvs
      have hidem : ∀ u ∈ us, ∀ v, Expands t₀ u v → v = u := by
        intro u hu v hv
        obtain ⟨_, _, hih⟩ := forall₂_right
          (forall₂_of_zip (R := fun _ u => ∀ {v}, Expands t₀ u v → v = u) length ih) u hu
        exact hih hv
      have hstep := ((List.forall₂_and_left us vs).mpr ⟨hidem, hvs⟩).imp fun _ v h => (h.1 v h.2).symm
      rw [← eq_of_forall₂ hstep, withParts_withParts length length]

/-- No name is left in an expanded type. -/
theorem named (h : Expands t₀ t u) : u.Everywhere fun s => s.isName = false := by
  induction h with
  | type _ _ => exact everywhere_iff.mpr ⟨rfl, by simp [TypeRef.parts]⟩
  | typedef _ _ _ ih => exact ih
  | parts head length each ih =>
      refine everywhere_withParts length (by rw [isName_withParts, head]) fun u hu => ?_
      obtain ⟨_, _, hnamed⟩ := forall₂_right (forall₂_of_zip
        (R := fun _ u => u.Everywhere fun s => s.isName = false) length ih) u hu
      exact hnamed

end Expands

/-- A type that is as it was or expanded already. -/
def Unfolds (t₀ : SymbolTable) (t u : TypeRef) : Prop := u = t ∨ Expands t₀ t u

namespace Unfolds

variable {t₀ : SymbolTable} {t u v : TypeRef}

theorem refl (t₀ : SymbolTable) (t : TypeRef) : Unfolds t₀ t t := .inl rfl

/-- What an unfolded type stands for is what the type stands for. -/
theorem expands (h : Unfolds t₀ t u) (h' : Expands t₀ u v) : Expands t₀ t v := by
  rcases h with rfl | h
  · exact h'
  · rwa [h.idem h']

theorem trans (h : Unfolds t₀ t u) (h' : Unfolds t₀ u v) : Unfolds t₀ t v := by
  rcases h' with rfl | h'
  · exact h
  · exact .inr (h.expands h')

end Unfolds

/-! ## Sound references -/

/-- A part that is no placeholder, and no handle of another kind than its
entity. -/
def SymbolTable.IsSoundPart (t : SymbolTable) : TypeRef → Prop
  | .entity kind id => t.kind? id = some kind
  | .placeholder _ => False
  | _ => True

/-- A reference without placeholders whose handles have the kinds of their
entities. -/
def SymbolTable.Sound (t : SymbolTable) (ref : TypeRef) : Prop := ref.Everywhere t.IsSoundPart

namespace SymbolTable

variable {t t' : SymbolTable}

theorem IsSoundPart.withParts {ref : TypeRef} (h : t.IsSoundPart ref) (us : List TypeRef) :
    t.IsSoundPart (ref.withParts us) := by
  exact TypeRef.holds_withParts h (fun _ => trivial) (fun _ _ => trivial) (fun _ _ _ h => h)
    (fun _ => trivial) (fun _ => trivial) us

theorem sound_of_written {ref : TypeRef} (h : ref.Everywhere IsWrittenPart) : t.Sound ref := by
  refine h.imp fun s hs => ?_
  cases s with
  | entity _ _ => exact hs.elim
  | placeholder _ => exact hs.elim
  | _ => trivial

theorem sound_of_isWritten {ref : TypeRef} (h : ref.IsWritten) : t.Sound ref := by
  rcases h with h | ⟨name, rfl⟩
  · exact sound_of_written h
  · exact everywhere_iff.mpr ⟨trivial, by simp [TypeRef.parts]⟩

end SymbolTable

/-- Expanding gives sound references. -/
theorem Expands.sound {t₀ : SymbolTable} (ht₀ : t₀.Declared) {t u : TypeRef}
    (h : Expands t₀ t u) (ht : t₀.Sound t) : t₀.Sound u := by
  induction h with
  | type _ kind_eq => exact everywhere_iff.mpr ⟨kind_eq, by simp [TypeRef.parts]⟩
  | typedef _ body _ ih => exact ih (SymbolTable.sound_of_written (ht₀.bodies _ _ body))
  | @parts t us _ length each ih =>
      refine everywhere_withParts length (ht.self.withParts us) fun u hu => ?_
      obtain ⟨s, hs, hsound⟩ := forall₂_right
        (forall₂_of_zip (R := fun s u => t₀.Sound s → t₀.Sound u) length ih) u hu
      exact hsound (ht.part hs)

theorem Unfolds.sound {t₀ : SymbolTable} (ht₀ : t₀.Declared) {t u : TypeRef}
    (h : Unfolds t₀ t u) (ht : t₀.Sound t) : t₀.Sound u := by
  rcases h with rfl | h
  · exact ht
  · exact h.sound ht₀ ht

end IdlModel
