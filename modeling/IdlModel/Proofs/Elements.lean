import IdlModel.Promises
import IdlModel.Proofs.Resolved
import IdlModel.Proofs.Spelling

/-!
# Elements of promises

What the element of a promise can be.

*Leaves.*  The parts of a type that have no parts are exchanged by `mapLeaves`.
Exchanging the string types twice changes nothing, and it changes nothing at all
where no string type is mentioned.

*Elements.*  An element has the handles of entities that were there before any
promise was made, and those of promises made before it.
-/

namespace IdlModel

namespace TypeRef

/-! ## Leaves -/

/-- Whether a reference is of a kind without parts. -/
def isLeaf : TypeRef → Bool
  | .sequence _ => false
  | .record _ _ => false
  | .parametrized _ _ => false
  | .union _ => false
  | .nullable _ => false
  | _ => true

theorem parts_eq_nil {t : TypeRef} (h : t.isLeaf = true) : t.parts = [] := by
  cases t with
  | sequence _ => cases h
  | record _ _ => cases h
  | parametrized _ _ => cases h
  | union _ => cases h
  | nullable _ => cases h
  | _ => rfl

theorem mapLeavesOf_eq_map (f : TypeRef → TypeRef) (ts : List TypeRef) :
    mapLeavesOf f ts = ts.map (mapLeaves f) := by
  induction ts with
  | nil => rfl
  | cons t ts ih => rw [mapLeavesOf, ih, List.map_cons]

theorem anyLeafOf_eq_any (test : TypeRef → Bool) (ts : List TypeRef) :
    anyLeafOf test ts = ts.any (anyLeaf test) := by
  induction ts with
  | nil => rfl
  | cons t ts ih => rw [anyLeafOf, ih, List.any_cons]

theorem mapLeaves_leaf {t : TypeRef} (h : t.isLeaf = true) (f : TypeRef → TypeRef) :
    t.mapLeaves f = f t := by
  cases t with
  | sequence _ => cases h
  | record _ _ => cases h
  | parametrized _ _ => cases h
  | union _ => cases h
  | nullable _ => cases h
  | _ => rfl

theorem mapLeaves_node {t : TypeRef} (h : t.isLeaf = false) (f : TypeRef → TypeRef) :
    t.mapLeaves f = t.withParts (t.parts.map (mapLeaves f)) := by
  cases t with
  | sequence _ => rfl
  | record _ _ => rfl
  | parametrized _ args => rw [mapLeaves, mapLeavesOf_eq_map]; rfl
  | union members => rw [mapLeaves, mapLeavesOf_eq_map]; rfl
  | nullable _ => rfl
  | _ => cases h

theorem anyLeaf_node {t : TypeRef} (h : t.isLeaf = false) (test : TypeRef → Bool) :
    t.anyLeaf test = t.parts.any (anyLeaf test) := by
  cases t with
  | sequence _ => simp [anyLeaf, parts]
  | record _ _ => simp [anyLeaf, parts]
  | parametrized _ _ => rw [anyLeaf, anyLeafOf_eq_any]; rfl
  | union _ => rw [anyLeaf, anyLeafOf_eq_any]; rfl
  | nullable _ => simp [anyLeaf, parts]
  | _ => cases h

theorem isLeaf_withParts (t : TypeRef) (us : List TypeRef) : (t.withParts us).isLeaf = t.isLeaf := by
  unfold withParts
  split <;> rfl

/-- What holds everywhere after an exchange, if it holds of the new leaves and of
every head with new parts. -/
theorem everywhere_mapLeaves {p q : TypeRef → Prop} {f : TypeRef → TypeRef} {t : TypeRef}
    (ht : t.Everywhere p) (hleaf : ∀ s, s.isLeaf = true → p s → (f s).Everywhere q)
    (hnode : ∀ s us, s.isLeaf = false → p s → q (s.withParts us)) : (t.mapLeaves f).Everywhere q := by
  induction t using partsInduction with
  | step t ih =>
    cases hisleaf : t.isLeaf with
    | true =>
        rw [mapLeaves_leaf hisleaf]
        exact hleaf t hisleaf ht.self
    | false =>
        rw [mapLeaves_node hisleaf]
        refine everywhere_withParts (List.length_map _) (hnode t _ hisleaf ht.self) fun u hu => ?_
        obtain ⟨s, hs, rfl⟩ := List.mem_map.mp hu
        exact ih s hs (ht.part hs)

/-! ### The two string types -/

theorem swapStrings_node {t : TypeRef} (h : t.isLeaf = false) :
    t.swapStrings = t.withParts (t.parts.map swapStrings) :=
  mapLeaves_node h _

theorem isLeaf_swapStrings (t : TypeRef) : t.swapStrings.isLeaf = t.isLeaf := by
  cases h : t.isLeaf with
  | true =>
      cases t with
      | sequence _ => cases h
      | record _ _ => cases h
      | parametrized _ _ => cases h
      | union _ => cases h
      | nullable _ => cases h
      | _ => rfl
  | false => rw [swapStrings_node h, isLeaf_withParts, h]

/-- Exchanging the string types twice changes nothing. -/
theorem swapStrings_swapStrings (t : TypeRef) : t.swapStrings.swapStrings = t := by
  induction t using partsInduction with
  | step t ih =>
    cases h : t.isLeaf with
    | true =>
        cases t with
        | primitive p => cases p <;> rfl
        | void => rfl
        | any => rfl
        | entity _ _ => rfl
        | unlinked _ => rfl
        | placeholder _ => rfl
        | _ => cases h
    | false =>
        have hlen : (t.parts.map swapStrings).length = t.parts.length := List.length_map _
        have hparts : (t.parts.map swapStrings).map swapStrings = t.parts := by
          rw [List.map_map]
          exact (List.map_congr_left (g := id) ih).trans (List.map_id _)
        rw [swapStrings_node h, swapStrings_node (by rw [isLeaf_withParts, h]),
          parts_withParts hlen, hparts, withParts_withParts hlen rfl, withParts_parts]

/-- A type that mentions no string type stays. -/
theorem swapStrings_eq_self {t : TypeRef} (h : t.mentionsString = false) : t.swapStrings = t := by
  induction t using partsInduction with
  | step t ih =>
    cases hleaf : t.isLeaf with
    | true =>
        cases t with
        | primitive p => cases p <;> first | rfl | cases h
        | void => rfl
        | any => rfl
        | entity _ _ => rfl
        | unlinked _ => rfl
        | placeholder _ => rfl
        | _ => cases hleaf
    | false =>
        rw [mentionsString, anyLeaf_node hleaf, List.any_eq_false] at h
        have hparts : ∀ u ∈ t.parts, u.swapStrings = id u := fun u hu =>
          ih u hu (Bool.eq_false_iff.mpr (h u hu))
        rw [swapStrings_node hleaf, List.map_congr_left hparts, List.map_id, withParts_parts]

end TypeRef

/-! ## Elements -/

namespace SymbolTable

variable {t₁ : SymbolTable} {bound bound' : Nat} {u : TypeRef}

/-- A part of the element of a promise: no name, no placeholder, no promise, and a
handle either of an entity that was linked or of the interface of a promise.  The
entities of promises follow those of the linked table `t₁` in groups of three. -/
def IsElementPart (t₁ : SymbolTable) (bound : Nat) : TypeRef → Prop
  | .unlinked _ => False
  | .placeholder _ => False
  | .parametrized name _ => name ∈ knownGenerics ∧ name ≠ "Promise"
  | .entity kind id =>
      (t₁.kind? id = some kind ∧ t₁.isInUse id = true ∧ t₁.IsFreePart (.entity kind id)) ∨
        (kind = .interface ∧ id.index < bound ∧ ∃ i, id.index = t₁.size + 3 * i)
  | _ => True

/-- What the element of a promise can be while there are `bound` entities. -/
def IsElement (t₁ : SymbolTable) (bound : Nat) (u : TypeRef) : Prop :=
  u.Everywhere (t₁.IsElementPart bound)

theorem IsElementPart.withParts (h : t₁.IsElementPart bound u) (us : List TypeRef) :
    t₁.IsElementPart bound (u.withParts us) := by
  exact TypeRef.holds_withParts h (fun _ => trivial) (fun _ _ => trivial) (fun _ _ _ h => h)
    (fun _ => trivial) (fun _ => trivial) us

theorem IsElement.mono (h : t₁.IsElement bound u) (hle : bound ≤ bound') :
    t₁.IsElement bound' u := by
  refine h.imp fun s hs => ?_
  cases s with
  | entity kind id =>
      exact hs.imp_right fun ⟨hkind, hlt, hplace⟩ => ⟨hkind, Nat.lt_of_lt_of_le hlt hle, hplace⟩
  | _ => exact hs

/-- The string types can be exchanged in an element. -/
theorem IsElement.swapStrings (h : t₁.IsElement bound u) : t₁.IsElement bound u.swapStrings := by
  refine TypeRef.everywhere_mapLeaves h (fun s hleaf hs => ?_) fun s us _ hs => hs.withParts us
  cases s with
  | primitive p => exact TypeRef.everywhere_iff.mpr ⟨trivial, by simp [TypeRef.parts]⟩
  | void => exact TypeRef.everywhere_iff.mpr ⟨trivial, by simp [TypeRef.parts]⟩
  | any => exact TypeRef.everywhere_iff.mpr ⟨trivial, by simp [TypeRef.parts]⟩
  | entity kind id => exact TypeRef.everywhere_iff.mpr ⟨hs, by simp [TypeRef.parts]⟩
  | unlinked _ => exact hs.elim
  | placeholder _ => exact hs.elim
  | _ => cases hleaf

/-- The handles of an element have a place. -/
theorem IsElement.lt (h : t₁.IsElement bound u) (hle : t₁.size ≤ bound) :
    u.Everywhere fun s => ∀ kind id, s = .entity kind id → id.index < bound := by
  refine h.imp ?_
  rintro s hs kind id rfl
  rcases hs with ⟨hkind, _⟩ | ⟨_, hlt, _⟩
  · obtain ⟨e, he, _⟩ := (t₁.kind?_eq_some id).mp hkind
    exact Nat.lt_of_lt_of_le (lt_of_entity? he) hle
  · exact hlt

end SymbolTable

end IdlModel
