import IdlModel.Proofs.MethodNaming
import IdlModel.Proofs.PromiseRun

/-!
# Settled tables

What the table looks like behind the promise stage.

*Entities in use.*  There are two sorts of them: linked entities with settled types,
and those of promises.

*Closed.*  A table is closed if nothing that an entity in use mentions is a name, a
placeholder or a promise, and all handles point to entities in use of the right
kind.  The table is closed behind the promise stage, and renamings keep it closed.
-/

namespace IdlModel

/-! ## The entities of a promise -/

/-- The types in the template. -/
theorem PromiseTemplate.types_entities {identity : String → Identity} {d : Entity}
    (hd : d ∈ builtin.entities identity) {ty : Location × TypeRef} (hty : ty ∈ d.types) :
    ty.2 ∈ [TypeRef.placeholder .element, .void, .any, .placeholder .promise,
      .placeholder .onFulfilled, .placeholder .onRejected] := by
  have hmem := List.mem_map_of_mem (f := Prod.snd) hty
  simp only [entities, List.mem_cons, List.not_mem_nil, or_false] at hd
  rcases hd with rfl | rfl | rfl
  · exact (by simp : [TypeRef.placeholder .promise, .placeholder .onFulfilled,
      .placeholder .onRejected, .placeholder .promise, .placeholder .onRejected] ⊆ _) hmem
  · exact (by simp : [TypeRef.void, .placeholder .element] ⊆ _) hmem
  · exact (by simp : [TypeRef.void, .any] ⊆ _) hmem

namespace SymbolTable

variable {t t' t₁ : SymbolTable} {es : List TypeRef} {x : EntityId} {e : Entity} {u : TypeRef}

/-- What the names of the entities of a promise end in, in order. -/
def promiseEndings : List String := ["", "OnFulfilled", "OnRejected"]

/-- What is known of the entity at place `j` of a promise whose first entity is at
`n`. -/
structure IsPromiseEntity (package : String) (at_ : Location) (key name : String) (u : TypeRef)
    (n j : Nat) (e : Entity) : Prop where
  identity : ∃ ending, promiseEndings[j]? = some ending ∧
    e.identity = Compilation.promiseIdentity package at_ key name ending
  kind : e.kind = .interface ↔ j = 0
  parent : e.parent? = none
  events : e.events = []
  types : ∀ ty ∈ e.types, ty.2 ∈ [u, .void, .any, .entity .interface ⟨n⟩,
    .entity .callback ⟨n + 1⟩, .entity .callback ⟨n + 2⟩]

theorem isPromiseEntity_of_group {package : String} {at_ : Location} {key name : String} {n j : Nat}
    (he : (promiseGroup package at_ key name u n)[j]? = some e) :
    IsPromiseEntity package at_ key name u n j e := by
  have htypes : ∀ ty ∈ e.types, ty.2 ∈ [u, .void, .any, .entity .interface ⟨n⟩,
      .entity .callback ⟨n + 1⟩, .entity .callback ⟨n + 2⟩] := by
    obtain ⟨d, hd, rfl⟩ := List.mem_map.mp (List.mem_of_getElem? he)
    intro ty hty
    rw [Entity.types_mapTypes] at hty
    obtain ⟨x, hx, rfl⟩ := List.mem_map.mp hty
    exact List.mem_map_of_mem (f := TypeRef.fill u (promiseAt n))
      (PromiseTemplate.types_entities hd hx)
  match j with
  | 0 =>
      cases he
      exact ⟨⟨"", rfl, rfl⟩, ⟨fun _ => rfl, fun _ => rfl⟩, rfl, rfl, htypes⟩
  | 1 =>
      cases he
      exact ⟨⟨"OnFulfilled", rfl, rfl⟩, ⟨nofun, nofun⟩, rfl, rfl, htypes⟩
  | 2 =>
      cases he
      exact ⟨⟨"OnRejected", rfl, rfl⟩, ⟨nofun, nofun⟩, rfl, rfl, htypes⟩
  | j + 3 => cases he

/-- The handles in an entity of a promise point to entities of their kind. -/
theorem HoldsPromise.handles {n : Nat} (h : t.HoldsPromise n u) :
    (t.kind? ⟨n⟩ = some .interface ∧ t.isInUse ⟨n⟩ = true) ∧
      (t.kind? ⟨n + 1⟩ = some .callback ∧ t.isInUse ⟨n + 1⟩ = true) ∧
        (t.kind? ⟨n + 2⟩ = some .callback ∧ t.isInUse ⟨n + 2⟩ = true) := by
  obtain ⟨package, at_, h⟩ := h
  obtain ⟨he, hused⟩ := h 0 _ rfl
  obtain ⟨he', hused'⟩ := h 1 _ rfl
  obtain ⟨he'', hused''⟩ := h 2 _ rfl
  refine ⟨⟨?_, hused⟩, ⟨?_, hused'⟩, ⟨?_, hused''⟩⟩
  · exact kind?_eq he
  · exact kind?_eq he'
  · exact kind?_eq he''

/-! ## Entities in use -/

/-- The entity at a place behind the linked ones is in the group of a promise. -/
theorem Made.group_entity (h : Made t₁ es t) (hx : t₁.size ≤ x.index)
    (he : t.entity? x = some e) :
    ∃ (i : Nat) (v : TypeRef) (j : Nat) (package : String) (at_ : Location), es[i]? = some v ∧
      x = ⟨t₁.place i + j⟩ ∧ t.isInUse x = true ∧
        (promiseGroup package at_ (t.spelling v) (t.elementName v) v (t₁.place i))[j]? = some e := by
  have hlt := h.size ▸ lt_of_entity? he
  obtain ⟨i, j, hj, hi, hplace⟩ := exists_place hx hlt
  obtain rfl : x = ⟨t₁.place i + j⟩ := EntityId.index_inj.mp hplace
  have hv : es[i]? = some es[i] := List.getElem?_eq_getElem hi
  obtain ⟨package, at_, hgroup⟩ := h.groups i _ hv
  obtain ⟨d, hd⟩ : ∃ d, (promiseGroup package at_ (t.spelling es[i]) (t.elementName es[i]) es[i]
      (t₁.place i))[j]? = some d := ⟨_, List.getElem?_eq_getElem hj⟩
  obtain ⟨hd', hused⟩ := hgroup j d hd
  obtain rfl := Option.some.inj (hd'.symm.trans he)
  exact ⟨i, _, j, package, at_, hv, rfl, hused, hd⟩

theorem Made.promiseEntity (h : Made t₁ es t) (hx : t₁.size ≤ x.index)
    (he : t.entity? x = some e) :
    ∃ (i : Nat) (v : TypeRef) (j : Nat) (package : String) (at_ : Location), es[i]? = some v ∧
      x = ⟨t₁.place i + j⟩ ∧ t.isInUse x = true ∧
        IsPromiseEntity package at_ (t.spelling v) (t.elementName v) v (t₁.place i) j e := by
  obtain ⟨i, v, j, package, at_, hv, rfl, hused, hgroup⟩ := h.group_entity hx he
  exact ⟨i, v, j, package, at_, hv, rfl, hused, isPromiseEntity_of_group hgroup⟩

/-- No entity of a promise is a dictionary. -/
theorem Made.ne_dictionary (h : Made t₁ es t) (hx : t₁.size ≤ x.index)
    (he : t.entity? x = some e) : e.kind ≠ .dictionary := by
  obtain ⟨_, _, j, _, _, _, _, _, hgroup⟩ := h.group_entity hx he
  match j with
  | 0 | 1 | 2 =>
      cases hgroup
      nofun
  | j + 3 => cases hgroup

/-- A handle of a linked entity in use points to the same kind of entity. -/
theorem Made.handle (h : Made t₁ es t) {kind : EntityKind} (hkind : t₁.kind? x = some kind)
    (hused : t₁.isInUse x = true) : t.kind? x = some kind ∧ t.isInUse x = true := by
  obtain ⟨e₁, he₁, rfl⟩ := (t₁.kind?_eq_some x).mp hkind
  obtain ⟨e, he, hblank⟩ := h.before x e₁ he₁
  refine ⟨(t.kind?_eq_some x).mpr ⟨e, he, Entity.kind_eq_of_blank hblank⟩, ?_⟩
  rw [h.marks x (lt_of_entity? he₁), hused]

/-- An element is a linked type without promises. -/
theorem Made.linked (h : Made t₁ es t) (hu : t₁.IsElement t.size u) :
    t.Linked u ∧ u.Everywhere fun s => s.isPromise = false := by
  have hpart : ∀ s, t₁.IsElementPart t.size s → t.IsLinkedPart s ∧ s.isPromise = false := by
    intro s hs
    cases s with
    | unlinked _ => exact hs.elim
    | placeholder _ => exact hs.elim
    | parametrized name _ => exact ⟨hs.1, beq_eq_false_iff_ne.mpr hs.2⟩
    | entity kind id =>
        refine ⟨?_, rfl⟩
        rcases hs with ⟨hkind, hused, _⟩ | ⟨rfl, hlt, i, hi⟩
        · exact h.handle hkind hused
        · obtain rfl : id = ⟨t₁.place i⟩ := EntityId.index_inj.mp hi
          have hlt : t₁.place i < t₁.place es.length := h.size ▸ hlt
          have hi : i < es.length := lt_of_place_lt hlt
          exact (h.groups i _ (List.getElem?_eq_getElem hi)).handles.1
    | _ => exact ⟨trivial, rfl⟩
  exact ⟨fun s hs => (hpart s (hu s hs)).1, fun s hs => (hpart s (hu s hs)).2⟩

/-! ## Closed tables -/

/-- A table in which nothing is left open. -/
structure Closed (t : SymbolTable) : Prop where
  types : ∀ x e, t.isInUse x = true → t.entity? x = some e → ∀ ty ∈ e.types,
    t.Linked ty.2 ∧ ty.2.Everywhere fun s => s.isPromise = false
  parents : ∀ x e p, t.isInUse x = true → t.entity? x = some e → e.parent? = some p →
    ∃ y, p = .entity e.kind y ∧ t.kind? y = some e.kind ∧ t.isInUse y = true
  events : ∀ x e, t.isInUse x = true → t.entity? x = some e → ∀ v ∈ e.events,
    t.kind? v.type = some .interface ∧ t.isInUse v.type = true
  interfaces : ∀ x, t.kind? x = some .interface → t.isInUse x = true

theorem Closed.renamed (h : t.Closed) (hrenamed : t.Renamed t') : t'.Closed where
  types x e' hused he' ty hty := by
    obtain ⟨e, he, hentity⟩ := hrenamed.entity_before he'
    obtain ⟨hlinked, hpromise⟩ :=
      h.types x e ((hrenamed.marks x).symm.trans hused) he ty (hentity.types ▸ hty)
    exact ⟨hrenamed.linked hlinked, hpromise⟩
  parents x e' p hused he' hp := by
    obtain ⟨e, he, hentity⟩ := hrenamed.entity_before he'
    obtain ⟨y, rfl, hkind, hy⟩ :=
      h.parents x e p ((hrenamed.marks x).symm.trans hused) he (hentity.parent ▸ hp)
    rw [← hentity.kind] at hkind ⊢
    exact ⟨y, rfl, (hrenamed.kind?_eq y).trans hkind, (hrenamed.marks y).trans hy⟩
  events x e' hused he' v hv := by
    obtain ⟨e, he, hentity⟩ := hrenamed.entity_before he'
    rw [hrenamed.kind?_eq, hrenamed.marks]
    rcases hentity.events v hv with hv | hkind
    · exact h.events x e ((hrenamed.marks x).symm.trans hused) he v hv
    · exact ⟨hkind, h.interfaces v.type hkind⟩
  interfaces x hkind := by
    rw [hrenamed.marks]
    exact h.interfaces x ((hrenamed.kind?_eq x).symm.trans hkind)

end SymbolTable

open SymbolTable

namespace Progress

variable {t t₁ : SymbolTable} {es : List TypeRef} {x y : EntityId} {e : Entity}

/-- An entity in use is a linked one with settled types, or one of a promise. -/
theorem sorts (h : Progress t₁ [] es t) (hused : t.isInUse x = true) (he : t.entity? x = some e) :
    (∃ e₁, t₁.isInUse x = true ∧ t₁.entity? x = some e₁ ∧ e₁.Rebuilt (Settled t₁ t) e) ∨
      t₁.size ≤ x.index := by
  rcases Nat.lt_or_ge x.index t₁.size with hlt | hge
  · obtain ⟨e₁, he₁⟩ := entity?_of_lt hlt
    have hused₁ := (h.made.marks x hlt).symm.trans hused
    obtain ⟨e', he', hrebuilt⟩ := h.behind x e₁ hused₁ List.not_mem_nil he₁
    obtain rfl := Option.some.inj (he'.symm.trans he)
    exact .inl ⟨e₁, hused₁, he₁, hrebuilt⟩
  · exact .inr hge

/-- The table is closed behind the promise stage. -/
theorem closed (ht₁ : t₁.Resolved) (h : Progress t₁ [] es t) : t.Closed where
  types x e hused he ty hty := by
    rcases h.sorts hused he with ⟨e₁, _, _, hrebuilt⟩ | hge
    · obtain ⟨_, _, _, hsettled⟩ := hrebuilt.source hty
      rcases hsettled.element with helement | ⟨kind, id, heq, hkind, hid⟩
      · exact h.made.linked helement
      · rw [heq]
        have hhandle := h.made.handle hkind hid
        exact ⟨TypeRef.everywhere_iff.mpr ⟨hhandle, by simp [TypeRef.parts]⟩,
          TypeRef.everywhere_iff.mpr ⟨rfl, by simp [TypeRef.parts]⟩⟩
    · obtain ⟨i, v, _, _, _, hv, _, _, hpromise⟩ := h.made.promiseEntity hge he
      obtain ⟨hinterface, hfulfilled, hrejected⟩ := (h.made.groups i v hv).handles
      have hleaf : ∀ s : TypeRef, s.parts = [] → t.IsLinkedPart s → s.isPromise = false →
          t.Linked s ∧ s.Everywhere fun s => s.isPromise = false := by
        intro s hparts hs hs'
        exact ⟨TypeRef.everywhere_iff.mpr ⟨hs, by simp [hparts]⟩,
          TypeRef.everywhere_iff.mpr ⟨hs', by simp [hparts]⟩⟩
      have hmem := hpromise.types ty hty
      simp only [List.mem_cons, List.not_mem_nil, or_false] at hmem
      rcases hmem with heq | heq | heq | heq | heq | heq
      · exact heq ▸ h.made.linked (h.made.isElement hv)
      · exact heq ▸ hleaf .void rfl trivial rfl
      · exact heq ▸ hleaf .any rfl trivial rfl
      · exact heq ▸ hleaf _ rfl hinterface rfl
      · exact heq ▸ hleaf _ rfl hfulfilled rfl
      · exact heq ▸ hleaf _ rfl hrejected rfl
  parents x e p hused he hp := by
    rcases h.sorts hused he with ⟨e₁, hused₁, he₁, hrebuilt⟩ | hge
    · rw [Entity.parent?_eq_of_blank hrebuilt.blank] at hp
      obtain ⟨y, rfl, hy, hkind⟩ := ht₁.parents x e₁ p hused₁ he₁ hp
      rw [Entity.kind_eq_of_blank hrebuilt.blank]
      exact ⟨y, rfl, h.made.handle hkind hy⟩
    · obtain ⟨_, _, _, _, _, _, _, _, hpromise⟩ := h.made.promiseEntity hge he
      rw [hpromise.parent] at hp
      cases hp
  events x e hused he v hv := by
    rcases h.sorts hused he with ⟨e₁, _, he₁, hrebuilt⟩ | hge
    · rw [Entity.events_eq_of_blank hrebuilt.blank, (ht₁.declared x e₁ he₁).2.2] at hv
      cases hv
    · obtain ⟨_, _, _, _, _, _, _, _, hpromise⟩ := h.made.promiseEntity hge he
      rw [hpromise.events] at hv
      cases hv
  interfaces x hkind := by
    obtain ⟨e, he, hek⟩ := (t.kind?_eq_some x).mp hkind
    rcases Nat.lt_or_ge x.index t₁.size with hlt | hge
    · obtain ⟨e₁, he₁, hblank⟩ := h.made.entity_before he hlt
      rw [h.made.marks x hlt]
      exact ht₁.interfaces x ((t₁.kind?_eq_some x).mpr
        ⟨e₁, he₁, (Entity.kind_eq_of_blank hblank).symm.trans hek⟩)
    · obtain ⟨_, _, _, _, _, _, _, hused, _⟩ := h.made.promiseEntity hge he
      exact hused

/-- Parents are as they were linked. -/
theorem hasParent (ht₁ : t₁.Resolved) (h : Progress t₁ [] es t) (hused : t.isInUse x = true)
    (hy : t.HasParent x y) : t₁.HasParent x y ∧ t.isInUse y = true := by
  obtain ⟨e, he⟩ := entity?_of_lt hy.lt
  rw [HasParent, parentOf?_eq he] at hy
  cases hp : e.parent? with
  | none => simp [hp] at hy
  | some p =>
      obtain ⟨z, rfl, _, hz⟩ := (h.closed ht₁).parents x e p hused he hp
      obtain rfl : z = y := by simpa [hp, TypeRef.entity?] using hy
      rcases h.sorts hused he with ⟨e₁, _, he₁, hrebuilt⟩ | hge
      · refine ⟨?_, hz⟩
        rw [HasParent, parentOf?_eq he₁, ← Entity.parent?_eq_of_blank hrebuilt.blank, hp]
        rfl
      · obtain ⟨_, _, _, _, _, _, _, _, hpromise⟩ := h.made.promiseEntity hge he
        rw [hpromise.parent] at hp
        cases hp

/-- The table is rooted behind the promise stage. -/
theorem rooted (ht₁ : t₁.Resolved) (h : Progress t₁ [] es t) : t.Rooted where
  parent x d p hused hd hp := by
    obtain ⟨y, hy, hkind, hused'⟩ := (h.closed ht₁).parents x (.interface d) p hused hd hp
    exact ⟨y, hy, hused', hkind⟩
  acyclic x hused hcycle := by
    have hlift : ∀ y, Relation.TransGen t.HasParent x y →
        Relation.TransGen t₁.HasParent x y ∧ t.isInUse y = true := by
      intro y hy
      induction hy with
      | single hy =>
          obtain ⟨hbefore, hused'⟩ := h.hasParent ht₁ hused hy
          exact ⟨.single hbefore, hused'⟩
      | tail _ hy ih =>
          obtain ⟨hbefore, hused'⟩ := h.hasParent ht₁ ih.2 hy
          exact ⟨.tail ih.1 hbefore, hused'⟩
    obtain ⟨hcycle₁, _⟩ := hlift x hcycle
    obtain ⟨z, hz, _⟩ := Relation.TransGen.head'_iff.mp hcycle₁
    refine ht₁.acyclic x ?_ hcycle₁
    rwa [← h.made.marks x hz.lt]

end Progress

end IdlModel
