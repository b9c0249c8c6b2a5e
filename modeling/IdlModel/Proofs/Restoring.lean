import IdlModel.Proofs.SettledTables

/-!
# Restoring promises

How to read a settled type as a type with promises again.

*Groups.*  The three entities of a promise know each other by their handles, and the
element of the promise is the type of the value that is handed to one of the
callbacks.  All of this is told by the table, without its records
(`SymbolTable.PromiseGroup`).

*Restoring.*  The interface of a promise is read as the promise of the restored
element.  A group has one element, so a type is restored in one way at most
(`Restores.det`).

*String types.*  A promise may have been made for the element with the string types
exchanged.  `TypeRef.unifyStrings` puts `DOMString` in the place of `USVString`
within promises, where the two do not differ.
-/

namespace IdlModel

/-! ## String types -/

namespace TypeRef

variable {t : TypeRef} {f g h : TypeRef → TypeRef}

/-- The reference with `DOMString` in the place of `USVString`. -/
def domStrings (t : TypeRef) : TypeRef :=
  t.mapLeaves fun
    | .primitive .usvString => .primitive .domString
    | leaf => leaf

/-- The reference with `DOMString` in the place of `USVString` in all its promises. -/
def unifyStrings (t : TypeRef) : TypeRef :=
  t.rebuildId fun u => if u.isPromise then u.domStrings else u

/-- An exchange of leaves behind another one. -/
theorem mapLeaves_mapLeaves (hleaf : ∀ s, s.isLeaf = true → (f s).mapLeaves g = h s) (t : TypeRef) :
    (t.mapLeaves f).mapLeaves g = t.mapLeaves h := by
  induction t using partsInduction with
  | step t ih =>
    cases hisleaf : t.isLeaf with
    | true => rw [mapLeaves_leaf hisleaf, mapLeaves_leaf hisleaf, hleaf t hisleaf]
    | false =>
        have hlen : (t.parts.map (mapLeaves f)).length = t.parts.length := List.length_map _
        have hparts : (t.parts.map (mapLeaves f)).map (mapLeaves g) = t.parts.map (mapLeaves h) := by
          rw [List.map_map]
          exact List.map_congr_left ih
        rw [mapLeaves_node hisleaf, mapLeaves_node (by rw [isLeaf_withParts, hisleaf]),
          mapLeaves_node hisleaf, parts_withParts hlen, hparts,
          withParts_withParts hlen (List.length_map _)]

theorem domStrings_domStrings (t : TypeRef) : t.domStrings.domStrings = t.domStrings := by
  refine mapLeaves_mapLeaves (fun s hs => ?_) t
  cases s with
  | primitive p => cases p <;> rfl
  | _ => first | rfl | cases hs

/-- Exchanging the string types makes no difference to this. -/
theorem domStrings_swapStrings (t : TypeRef) : t.swapStrings.domStrings = t.domStrings := by
  refine mapLeaves_mapLeaves (fun s hs => ?_) t
  cases s with
  | primitive p => cases p <;> rfl
  | _ => first | rfl | cases hs

theorem domStrings_node (ht : t.isLeaf = false) :
    t.domStrings = t.withParts (t.parts.map domStrings) :=
  mapLeaves_node ht _

theorem domStrings_withParts (ht : t.isLeaf = false) {us : List TypeRef}
    (hlen : us.length = t.parts.length) :
    (t.withParts us).domStrings = t.withParts (us.map domStrings) := by
  rw [domStrings_node (by rw [isLeaf_withParts, ht]), parts_withParts hlen,
    withParts_withParts hlen ((List.length_map _).trans hlen)]

/-- A reference that is no promise is treated part by part. -/
theorem unifyStrings_withParts (ht : t.isPromise = false) {us : List TypeRef}
    (hlen : us.length = t.parts.length) :
    (t.withParts us).unifyStrings = t.withParts (us.map unifyStrings) := by
  rw [unifyStrings, rebuildId_eq, parts_withParts hlen,
    withParts_withParts hlen ((List.length_map _).trans hlen), if_neg]
  · rfl
  · rw [isPromise_withParts, ht]
    exact Bool.false_ne_true

theorem unifyStrings_node (ht : t.isPromise = false) :
    t.unifyStrings = t.withParts (t.parts.map unifyStrings) := by
  have hparts : (t.withParts t.parts).unifyStrings = t.withParts (t.parts.map unifyStrings) :=
    unifyStrings_withParts ht rfl
  rwa [withParts_parts] at hparts

theorem unifyStrings_promise (element : TypeRef) :
    (parametrized "Promise" [element]).unifyStrings =
      .parametrized "Promise" [element.unifyStrings.domStrings] := by
  rw [unifyStrings, rebuildId_eq]
  rfl

example : (record (.primitive .usvString) (.parametrized "Promise" [.primitive .usvString])).unifyStrings =
    .record (.primitive .usvString) (.parametrized "Promise" [.primitive .domString]) := rfl

theorem domStrings_unifyStrings (t : TypeRef) : t.unifyStrings.domStrings = t.domStrings := by
  induction t using partsInduction with
  | step t ih =>
    have hlen : (t.parts.map unifyStrings).length = t.parts.length := List.length_map _
    have hhead : t.unifyStrings.domStrings = (t.withParts (t.parts.map unifyStrings)).domStrings := by
      rw [unifyStrings, rebuildId_eq]
      split
      · exact domStrings_domStrings _
      · rfl
    cases hleaf : t.isLeaf with
    | true =>
        have hparts := parts_eq_nil hleaf
        rw [hhead, hparts]
        exact congrArg domStrings (withParts_of_parts_eq_nil hparts (by rw [hparts]; rfl))
    | false =>
        rw [hhead, domStrings_withParts hleaf hlen, List.map_map, domStrings_node hleaf]
        exact congrArg t.withParts (List.map_congr_left ih)

/-- Within a promise only the string types of the element can differ. -/
theorem unifyStrings_promise_eq {u v : TypeRef} (h : u.domStrings = v.domStrings) :
    (parametrized "Promise" [u]).unifyStrings = (parametrized "Promise" [v]).unifyStrings := by
  rw [unifyStrings_promise, unifyStrings_promise, domStrings_unifyStrings, domStrings_unifyStrings, h]

end TypeRef

/-! ## The entities of a promise -/

/-- The handles of the three entities of a promise. -/
def PromiseInstance.ids (made : PromiseInstance) : List EntityId :=
  [made.interface, made.onFulfilled, made.onRejected]

/-- A reference without placeholders. -/
def TypeRef.Filled (t : TypeRef) : Prop := t.Everywhere fun s => ∀ hole, s ≠ .placeholder hole

namespace SymbolTable

variable {t t' t₁ : SymbolTable} {es : List TypeRef} {made made' : PromiseInstance}
  {element element' u v r : TypeRef}

/-- The three entities of the promise of an element. -/
structure PromiseGroup (t : SymbolTable) (made : PromiseInstance) (element : TypeRef) : Prop where
  interface : ∃ d, t.entity? made.interface = some (.interface d) ∧
    d.identity.template = some (.madeFor (t.spelling element)) ∧
    d.members.methods.map (fun m => (m.idl, m.result, m.params.map Parameter.type)) =
      [("then", .entity .interface made.interface,
          [.entity .callback made.onFulfilled, .entity .callback made.onRejected]),
        ("catch", .entity .interface made.interface, [.entity .callback made.onRejected])]
  onFulfilled : ∃ d, t.entity? made.onFulfilled = some (.callback d) ∧ d.result = .void ∧
    d.params.map (fun p => (p.name, p.type)) = [("value", element)]
  onRejected : ∃ d, t.entity? made.onRejected = some (.callback d) ∧ d.result = .void ∧
    d.params.map (fun p => (p.name, p.type)) = [("reason", .any)]
  filled : ∀ x ∈ made.ids, ∀ e, t.entity? x = some e → ∀ ty ∈ e.types, ty.2.Filled

/-- A group is known by its interface. -/
theorem PromiseGroup.unique (h : t.PromiseGroup made element) (h' : t.PromiseGroup made' element')
    (heq : made.interface = made'.interface) : made = made' ∧ element = element' := by
  obtain ⟨d, hd, _, hmethods⟩ := h.interface
  obtain ⟨d', hd', _, hmethods'⟩ := h'.interface
  rw [← heq, hd] at hd'
  cases hd'
  have hsame := hmethods.symm.trans hmethods'
  simp only [List.cons.injEq, Prod.mk.injEq, TypeRef.entity.injEq] at hsame
  obtain ⟨⟨_, _, ⟨_, hfulfilled⟩, ⟨_, hrejected⟩, _⟩, _⟩ := hsame
  have hmade : made = made' := by
    obtain ⟨i, f, r⟩ := made
    obtain ⟨i', f', r'⟩ := made'
    obtain rfl : i = i' := heq
    obtain rfl : f = f' := hfulfilled
    obtain rfl : r = r' := hrejected
    rfl
  obtain ⟨d, hd, _, hparams⟩ := h.onFulfilled
  obtain ⟨d', hd', _, hparams'⟩ := h'.onFulfilled
  rw [← hmade, hd] at hd'
  cases hd'
  have hsame := hparams.symm.trans hparams'
  simp only [List.cons.injEq, Prod.mk.injEq] at hsame
  exact ⟨hmade, hsame.1.2⟩

/-- What is held for a promise is a group. -/
theorem HoldsPromise.group {n : Nat} (h : t.HoldsPromise n u) (hu : u.Filled) :
    t.PromiseGroup (promiseAt n) u := by
  obtain ⟨package, at_, h⟩ := h
  obtain ⟨he, _⟩ := h 0 _ rfl
  obtain ⟨he', _⟩ := h 1 _ rfl
  obtain ⟨he'', _⟩ := h 2 _ rfl
  have hfilled : ∀ (j : Nat) e,
      (promiseGroup package at_ (t.spelling u) (t.elementName u) u n)[j]? = some e →
        ∀ ty ∈ e.types, ty.2.Filled := by
    intro j e hj ty hty
    have hmem := (isPromiseEntity_of_group hj).types ty hty
    simp only [List.mem_cons, List.not_mem_nil, or_false] at hmem
    rcases hmem with heq | heq | heq | heq | heq | heq
    · exact heq ▸ hu
    all_goals
      refine heq ▸ TypeRef.everywhere_of_no_parts rfl fun hole hs => ?_
      cases hs
  refine
    { interface := ⟨_, he, rfl, rfl⟩
      onFulfilled := ⟨_, he', rfl, rfl⟩
      onRejected := ⟨_, he'', rfl, rfl⟩
      filled := fun x hx e hxe => ?_ }
  simp only [PromiseInstance.ids, promiseAt, List.mem_cons, List.not_mem_nil, or_false] at hx
  rcases hx with rfl | rfl | rfl
  · exact hfilled 0 e (by rw [Option.some.inj (hxe.symm.trans he)]; rfl)
  · exact hfilled 1 e (by rw [Option.some.inj (hxe.symm.trans he')]; rfl)
  · exact hfilled 2 e (by rw [Option.some.inj (hxe.symm.trans he'')]; rfl)

/-- The interface of a promise. -/
def IsPromiseInterface (t : SymbolTable) (ref : TypeRef) : Prop :=
  ∃ made element, t.PromiseGroup made element ∧ ref = .entity .interface made.interface

end SymbolTable

/-! ## Restoring -/

/-- A type and what it reads as with promises in the place of their interfaces. -/
inductive Restores (t : SymbolTable) : TypeRef → TypeRef → Prop
  | promise {made : PromiseInstance} {element r : TypeRef} (group : t.PromiseGroup made element)
      (rest : Restores t element r) :
      Restores t (.entity .interface made.interface) (.parametrized "Promise" [r])
  | parts {u : TypeRef} {rs : List TypeRef} (head : ¬ t.IsPromiseInterface u)
      (length : rs.length = u.parts.length) (each : ∀ p ∈ u.parts.zip rs, Restores t p.1 p.2) :
      Restores t u (u.withParts rs)

/-- The type `r` is the one that `u` reads as. -/
def IsRestored (t : SymbolTable) (u r : TypeRef) : Prop := ∀ s, Restores t u s ↔ s = r

namespace Restores

variable {t : SymbolTable} {u r s : TypeRef}

theorem ofParts {rs : List TypeRef} (head : ¬ t.IsPromiseInterface u)
    (each : List.Forall₂ (Restores t) u.parts rs) : Restores t u (u.withParts rs) :=
  .parts head each.length_eq.symm fun _ hp => List.forall₂_zip each hp

/-- What has no parts and is no interface of a promise stays. -/
theorem leaf (head : ¬ t.IsPromiseInterface u) (hparts : u.parts = []) : Restores t u u := by
  have h : Restores t u (u.withParts []) := ofParts head (by rw [hparts]; exact .nil)
  rwa [TypeRef.withParts_of_parts_eq_nil hparts (by rw [hparts])] at h

/-- A type without handles stays. -/
theorem of_no_handles (h : u.Everywhere fun s => s.entity? = none) : Restores t u u := by
  induction u using TypeRef.partsInduction with
  | step u ih =>
    have hhead : ¬ t.IsPromiseInterface u := by
      rintro ⟨made, element, _, rfl⟩
      cases h.self
    have hwhole := ofParts hhead (List.forall₂_same.mpr fun v hv => ih v hv (h.part hv))
    rwa [TypeRef.withParts_parts] at hwhole

/-- A type reads in one way at most. -/
theorem det (h : Restores t u r) (h' : Restores t u s) : s = r := by
  induction h generalizing s with
  | @promise made element r group _ ih =>
      generalize hu : TypeRef.entity .interface made.interface = u at h'
      cases h' with
      | promise group' rest =>
          obtain ⟨_, rfl⟩ := group.unique group' (TypeRef.entity.inj hu).2
          rw [ih rest]
      | parts head _ _ => exact absurd ⟨made, element, group, hu.symm⟩ head
  | @parts u rs head length each ih =>
      cases h' with
      | promise group' _ => exact absurd ⟨_, _, group', rfl⟩ head
      | parts _ length' each' =>
          have hstep := forall₂_join (fun _ _ _ hdet hs => hdet hs)
            (forall₂_of_zip (R := fun u r => ∀ {s}, Restores t u s → s = r) length ih)
            (forall₂_of_zip length' each')
          rw [eq_of_forall₂ (hstep.imp fun _ _ h => h.symm)]

theorem isRestored (h : Restores t u r) : IsRestored t u r := by
  intro s
  constructor
  · exact h.det
  · rintro rfl
    exact h

/-- With the string types exchanged a type reads as before, up to these. -/
theorem swapStrings (h : Restores t u r) :
    ∃ r', Restores t u.swapStrings r' ∧ r'.domStrings = r.domStrings := by
  induction h with
  | promise group rest _ => exact ⟨_, .promise group rest, rfl⟩
  | @parts u rs head length each ih =>
      have hhead : ¬ t.IsPromiseInterface u.swapStrings := by
        rintro ⟨made, element, group, heq⟩
        refine head ⟨made, element, group, ?_⟩
        rw [← TypeRef.swapStrings_swapStrings u, heq]
        rfl
      cases hleaf : u.isLeaf with
      | true =>
          have hparts : u.swapStrings.parts = [] :=
            TypeRef.parts_eq_nil ((TypeRef.isLeaf_swapStrings u).trans hleaf)
          rw [TypeRef.withParts_of_parts_eq_nil (TypeRef.parts_eq_nil hleaf) length]
          exact ⟨_, leaf hhead hparts, TypeRef.domStrings_swapStrings u⟩
      | false =>
          have hlen : (u.parts.map TypeRef.swapStrings).length = u.parts.length :=
            List.length_map _
          obtain ⟨cs, hcs, hsame⟩ := forall₂_split (forall₂_of_zip (R := fun u r => ∃ r',
            Restores t u.swapStrings r' ∧ r'.domStrings = r.domStrings) length ih)
          have hlen' := hcs.length_eq.symm
          have hdom : cs.map TypeRef.domStrings = rs.map TypeRef.domStrings := by
            rw [← List.forall₂_eq_eq_eq, List.forall₂_map_left_iff, List.forall₂_map_right_iff]
            exact hsame
          rw [TypeRef.swapStrings_node hleaf] at hhead ⊢
          refine ⟨(u.withParts (u.parts.map TypeRef.swapStrings)).withParts cs,
            ofParts hhead ?_, ?_⟩
          · rwa [TypeRef.parts_withParts hlen, List.forall₂_map_left_iff]
          · rw [TypeRef.withParts_withParts hlen hlen', TypeRef.domStrings_withParts hleaf hlen',
              TypeRef.domStrings_withParts hleaf length, hdom]

end Restores

end IdlModel
