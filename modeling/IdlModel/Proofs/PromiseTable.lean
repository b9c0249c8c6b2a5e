import IdlModel.Proofs.Elements

/-!
# Tables with promises

What a table looks like while promises are made.

*Groups.*  The entities of a promise come in a group of three behind those of the
linked table.  `HoldsPromise` says what is in a group.

*Growth.*  The table only grows: an entity that is there stays, and so does its
mark.  Spellings and element names of the types that it knows stay too.

*Records.*  A promise is recorded under the spelling of its element and under the
one with the string types exchanged, and nothing else is recorded.  If all declared
names are identifiers, different elements have different spellings, so no record
is ever taken by another promise: `Made.exact`.
-/

namespace IdlModel

namespace SymbolTable

variable {t t' t₁ : SymbolTable} {x : EntityId} {u v : TypeRef}

/-! ## Adding entities in use -/

@[simp] theorem size_addInUse (t : SymbolTable) (e : Entity) : (t.addInUse e).size = t.size + 1 := by
  rw [addInUse, size_mark, size_push]

theorem addInUse_self (t : SymbolTable) (e : Entity) :
    (t.addInUse e).entity? t.nextId = some e ∧ (t.addInUse e).isInUse t.nextId = true := by
  constructor
  · rw [addInUse, entity?_mark, entity?_push_self]
  · refine isInUse_mark_self ?_
    rw [size_push]
    exact Nat.lt_succ_self t.size

theorem addInUse_of_lt (h : x.index < t.size) (e : Entity) :
    (t.addInUse e).entity? x = t.entity? x ∧ (t.addInUse e).isInUse x = t.isInUse x := by
  have hne : x ≠ t.nextId := by
    rintro rfl
    exact Nat.lt_irrefl _ h
  constructor
  · rw [addInUse, entity?_mark, t.entity?_push_of_ne hne]
  · rw [addInUse, (t.push e).isInUse_mark_of_ne hne, isInUse_push]

/-- A table to which entities were added that are in use. -/
structure Added (t : SymbolTable) (es : List Entity) (t' : SymbolTable) : Prop where
  size : t'.size = t.size + es.length
  names : t'.names = t.names
  promises : t'.promises = t.promises
  old : ∀ x, x.index < t.size → t'.entity? x = t.entity? x ∧ t'.isInUse x = t.isInUse x
  new : ∀ (j : Nat) e, es[j]? = some e →
    t'.entity? ⟨t.size + j⟩ = some e ∧ t'.isInUse ⟨t.size + j⟩ = true

theorem added_foldl (es : List Entity) (t : SymbolTable) : t.Added es (es.foldl addInUse t) := by
  induction es generalizing t with
  | nil => exact ⟨rfl, rfl, rfl, fun _ _ => ⟨rfl, rfl⟩, by simp⟩
  | cons e es ih =>
    obtain ⟨hsize, hnames, hpromises, hold, hnew⟩ := ih (t.addInUse e)
    rw [size_addInUse] at hsize hold hnew
    rw [List.foldl_cons]
    refine ⟨?_, hnames, hpromises, fun x hx => ?_, fun j d hd => ?_⟩
    · rw [hsize, List.length_cons, Nat.add_right_comm, Nat.add_assoc]
    · obtain ⟨he, hused⟩ := hold x (Nat.lt_succ_of_lt hx)
      obtain ⟨he', hused'⟩ := addInUse_of_lt hx e
      exact ⟨he.trans he', hused.trans hused'⟩
    · cases j with
      | zero =>
          obtain rfl : e = d := by simpa using hd
          obtain ⟨he, hused⟩ := hold t.nextId (Nat.lt_succ_self t.size)
          exact ⟨he.trans (t.addInUse_self e).1, hused.trans (t.addInUse_self e).2⟩
      | succ j =>
          have := hnew j d (by simpa using hd)
          rwa [Nat.add_right_comm] at this

/-! ## Spellings in a growing table -/

/-- The types whose handles point to entities of the table. -/
def Knows (t : SymbolTable) (u : TypeRef) : Prop :=
  u.Everywhere fun s => ∀ kind id, s = .entity kind id → ∃ e, t.entity? id = some e

/-- A table that identifies the entities of another one as before. -/
def Identifies (t t' : SymbolTable) : Prop :=
  ∀ x e, t.entity? x = some e → ∃ e', t'.entity? x = some e' ∧ e'.identity = e.identity

theorem Identifies.knows (h : t.Identifies t') (hu : t.Knows u) : t'.Knows u := by
  refine hu.imp fun s hs kind id heq => ?_
  obtain ⟨e, he⟩ := hs kind id heq
  obtain ⟨e', he', _⟩ := h id e he
  exact ⟨e', he'⟩

theorem Identifies.spelling_eq (h : t.Identifies t') (hu : t.Knows u) :
    t'.spelling u = t.spelling u := by
  refine TypeRef.spellingWith_congr (hu.imp ?_)
  rintro s hs kind id rfl
  obtain ⟨e, he⟩ := hs kind id rfl
  obtain ⟨e', he', hidentity⟩ := h id e he
  simp only [entitySpelling, he, he', Entity.key, hidentity]

theorem Identifies.elementName_eq (h : t.Identifies t') (hu : t.Knows u) :
    t'.elementName u = t.elementName u := by
  refine TypeRef.elementNameWith_congr (hu.imp ?_)
  rintro s hs kind id rfl
  obtain ⟨e, he⟩ := hs kind id rfl
  obtain ⟨e', he', hidentity⟩ := h id e he
  simp only [he, he', Option.map_some, hidentity]

/-! ## Groups -/

/-- The entities of a promise whose first is at `n`, for an element with a key and a
name. -/
def promiseGroup (package : String) (at_ : Location) (key name : String) (element : TypeRef)
    (n : Nat) : List Entity :=
  (PromiseTemplate.builtin.entities (Compilation.promiseIdentity package at_ key name)).map
    (·.mapTypes (TypeRef.fill element (promiseAt n)))

/-- The entities of the promise of an element are in use and start at `n`. -/
def HoldsPromise (t : SymbolTable) (n : Nat) (element : TypeRef) : Prop :=
  ∃ package at_, ∀ (j : Nat) e,
    (promiseGroup package at_ (t.spelling element) (t.elementName element) element n)[j]? = some e →
      t.entity? ⟨n + j⟩ = some e ∧ t.isInUse ⟨n + j⟩ = true

/-- The identity of the interface of a promise. -/
theorem HoldsPromise.interface {n : Nat} (h : t.HoldsPromise n u) :
    ∃ e, t.entity? ⟨n⟩ = some e ∧ t.isInUse ⟨n⟩ = true ∧ e.kind = .interface ∧
      e.identity.template = some (.madeFor (t.spelling u)) := by
  obtain ⟨package, at_, h⟩ := h
  obtain ⟨he, hused⟩ := h 0 _ rfl
  refine ⟨_, he, hused, ?_, ?_⟩
  · rfl
  · rfl

/-! ## Tables with promises -/

/-- All names of a table are identifiers. -/
def HasIdentifiers (t : SymbolTable) : Prop := ∀ name ∈ t.names.keys, IsIdentifier name

/-- Where the entities of a promise start, given the number of those before it. -/
def place (t₁ : SymbolTable) (i : Nat) : Nat := t₁.size + 3 * i

/-- A table that was linked as `t₁`, and to which the promises of some elements were
added. -/
structure Made (t₁ : SymbolTable) (es : List TypeRef) (t : SymbolTable) : Prop where
  size : t.size = t₁.place es.length
  names : t.names = t₁.names
  before : ∀ x e₁, t₁.entity? x = some e₁ → ∃ e, t.entity? x = some e ∧ e.blank = e₁.blank
  marks : ∀ x, x.index < t₁.size → t.isInUse x = t₁.isInUse x
  groups : ∀ (i : Nat) u, es[i]? = some u → t.HoldsPromise (t₁.place i) u
  elements : ∀ (i : Nat) u, es[i]? = some u → t₁.IsElement (t₁.place i) u
  recorded : ∀ key made, t.promise? key = some made → ∃ (i : Nat) (u : TypeRef),
    es[i]? = some u ∧ made = promiseAt (t₁.place i) ∧
      (key = t.spelling u ∨ key = t.spelling u.swapStrings)
  exact : t₁.HasIdentifiers → ∀ (i : Nat) u, es[i]? = some u →
    t.promise? (t.spelling u) = some (promiseAt (t₁.place i)) ∧
      t.promise? (t.spelling u.swapStrings) = some (promiseAt (t₁.place i))

variable {es : List TypeRef}

theorem place_lt {i n : Nat} (h : i < n) : t₁.place i + 3 ≤ t₁.place n := by
  unfold place
  omega

theorem lt_of_place_lt {i n : Nat} (h : t₁.place i < t₁.place n) : i < n := by
  unfold place at h
  omega

/-- Groups of three do not overlap. -/
theorem place_add_inj {i i' j j' : Nat} (hj : j < 3) (hj' : j' < 3)
    (h : t₁.place i + j = t₁.place i' + j') : i = i' ∧ j = j' := by
  unfold place at h
  omega

theorem place_inj {i j : Nat} (h : t₁.place i = t₁.place j) : i = j :=
  (place_add_inj (Nat.zero_lt_succ 2) (Nat.zero_lt_succ 2) h).1

/-- Every place behind the first table is in a group. -/
theorem exists_place {n k : Nat} (hle : t₁.size ≤ k) (hlt : k < t₁.place n) :
    ∃ i j, j < 3 ∧ i < n ∧ k = t₁.place i + j := by
  unfold place at hlt
  refine ⟨(k - t₁.size) / 3, (k - t₁.size) % 3, Nat.mod_lt _ (Nat.zero_lt_succ 2), ?_, ?_⟩
  · omega
  · unfold place
    omega

theorem size_le_place (i : Nat) : t₁.size ≤ t₁.place i := Nat.le_add_right _ _

theorem lt_length_of_getElem? {i : Nat} (h : es[i]? = some u) : i < es.length :=
  (List.getElem?_eq_some_iff.mp h).1

/-- Before any promise is made. -/
theorem Made.start (h : t₁.Resolved) : Made t₁ [] t₁ where
  size := rfl
  names := rfl
  before _ e₁ he₁ := ⟨e₁, he₁, rfl⟩
  marks _ _ := rfl
  groups _ _ hu := by cases hu
  elements _ _ hu := by cases hu
  recorded key made hmade := by
    rw [promise?, h.promises, Register.find?_empty] at hmade
    cases hmade
  exact _ _ _ hu := by cases hu

theorem Made.size_le (h : Made t₁ es t) : t₁.size ≤ t.size := by
  rw [h.size]
  exact size_le_place _

/-- An element of a promise is one as long as the table grows. -/
theorem Made.isElement (h : Made t₁ es t) {i : Nat} (hu : es[i]? = some u) :
    t₁.IsElement t.size u := by
  refine (h.elements i u hu).mono ?_
  rw [h.size]
  exact Nat.le_of_add_right_le (place_lt (lt_length_of_getElem? hu))

/-- The table knows the elements. -/
theorem Made.knows (h : Made t₁ es t) (hu : t₁.IsElement t.size u) : t.Knows u :=
  (hu.lt h.size_le).imp fun _ hs kind id heq => entity?_of_lt (hs kind id heq)

theorem Made.entity_before (h : Made t₁ es t) {e : Entity} (he : t.entity? x = some e)
    (hx : x.index < t₁.size) : ∃ e₁, t₁.entity? x = some e₁ ∧ e.blank = e₁.blank := by
  obtain ⟨e₁, he₁⟩ := entity?_of_lt hx
  obtain ⟨e', he', hblank⟩ := h.before x e₁ he₁
  obtain rfl := Option.some.inj (he'.symm.trans he)
  exact ⟨e₁, he₁, hblank⟩

/-! ## Reading elements -/

/-- What an element looks like with names in it: a handle of a linked entity is the
name of the entity, and one of a promise is the promise again. -/
inductive Reads (t₁ : SymbolTable) (es : List TypeRef) : TypeRef → TypeRef → Prop
  | declared {kind : EntityKind} {id : EntityId} {e : Entity} (entity : t₁.entity? id = some e) :
      Reads t₁ es (.entity kind id) (.unlinked e.key)
  | promise {i : Nat} {u r : TypeRef} (element : es[i]? = some u) (reads : Reads t₁ es u r) :
      Reads t₁ es (.entity .interface ⟨t₁.place i⟩) (.parametrized "Promise" [r])
  | parts {u : TypeRef} {rs : List TypeRef} (head : u.entity? = none)
      (length : rs.length = u.parts.length) (each : ∀ p ∈ u.parts.zip rs, Reads t₁ es p.1 p.2) :
      Reads t₁ es u (u.withParts rs)

theorem exists_forall₂ {α β : Type} {R : α → β → Prop} {as : List α} (h : ∀ a ∈ as, ∃ b, R a b) :
    ∃ bs, List.Forall₂ R as bs := by
  induction as with
  | nil => exact ⟨[], .nil⟩
  | cons a as ih =>
    obtain ⟨b, hb⟩ := h a List.mem_cons_self
    obtain ⟨bs, hbs⟩ := ih fun x hx => h x (List.mem_cons_of_mem a hx)
    exact ⟨b :: bs, .cons hb hbs⟩

/-- A part of an element that is no handle is a part of a type without handles. -/
theorem IsElementPart.isPlainPart {bound : Nat} {s : TypeRef} (h : t₁.IsElementPart bound s)
    (hs : s.entity? = none) : TypeRef.IsPlainPart s := by
  cases s with
  | unlinked _ => exact h.elim
  | placeholder _ => exact h.elim
  | parametrized _ _ => exact h.1
  | entity _ _ => cases hs
  | _ => trivial

/-- Every element has a plain reading, if all declared names are identifiers. -/
theorem Made.exists_reads (ht₁ : t₁.Resolved) (hid : t₁.HasIdentifiers) (h : Made t₁ es t)
    {n : Nat} (hn : n ≤ es.length) {u : TypeRef} (hu : t₁.IsElement (t₁.place n) u) :
    ∃ r, Reads t₁ es u r ∧ r.Plain := by
  induction n using Nat.strongRecOn generalizing u with
  | ind n ihn =>
    induction u using TypeRef.partsInduction with
    | step u ihu =>
      by_cases hhandle : ∃ kind id, u = .entity kind id
      · obtain ⟨kind, id, rfl⟩ := hhandle
        rcases hu.self with ⟨hkind, _, hfree⟩ | ⟨rfl, hlt, i, hi⟩
        · obtain ⟨e, he, _⟩ := (t₁.kind?_eq_some id).mp hkind
          have hname := Register.mem_keys_of_find? ((ht₁.names e.key id).mpr ⟨e, he, rfl⟩)
          refine ⟨_, .declared he, TypeRef.everywhere_iff.mpr ⟨⟨hfree e he, hid _ hname⟩, ?_⟩⟩
          simp [TypeRef.parts]
        · obtain rfl : id = ⟨t₁.place i⟩ := EntityId.index_inj.mp hi
          have hin : i < n := lt_of_place_lt hlt
          have hv : es[i]? = some es[i] := List.getElem?_eq_getElem (Nat.lt_of_lt_of_le hin hn)
          obtain ⟨r, hr, hplain⟩ :=
            ihn i hin (Nat.le_of_lt (Nat.lt_of_lt_of_le hin hn)) (h.elements i _ hv)
          refine ⟨_, .promise hv hr, TypeRef.everywhere_iff.mpr ⟨?_, fun s hs => ?_⟩⟩
          · exact TypeRef.mem_knownGenerics.mpr (.inl rfl)
          · rw [List.mem_singleton.mp hs]
            exact hplain
      · obtain ⟨rs, hrs⟩ := exists_forall₂ fun s hs => ihu s hs (hu.part hs)
        have hhead : u.entity? = none := by
          cases u with
          | entity kind id => exact absurd ⟨kind, id, rfl⟩ hhandle
          | _ => rfl
        have hlength : rs.length = u.parts.length := hrs.length_eq.symm
        refine ⟨_, .parts hhead hlength fun p hp => (List.forall₂_zip hrs hp).1, ?_⟩
        refine TypeRef.everywhere_withParts hlength ?_ fun r hr => ?_
        · exact (hu.self.isPlainPart hhead).withParts rs
        · obtain ⟨_, _, hplain⟩ := forall₂_right hrs r hr
          exact hplain.2

/-- An element is spelled as its reading. -/
theorem Reads.spelling_eq (ht₁ : t₁.Resolved) (h : Made t₁ es t) {u r : TypeRef}
    (hr : Reads t₁ es u r) : t.spelling u = r.spellingWith fun _ => "" := by
  induction hr with
  | @declared kind id e₁ he₁ =>
      obtain ⟨e, he, hblank⟩ := h.before id e₁ he₁
      have hidentity := Entity.identity_eq_of_blank hblank
      show t.entitySpelling id = e₁.key
      rw [entitySpelling, he]
      simp only [hidentity, (ht₁.declared id e₁ he₁).1, Entity.key]
  | @promise i u r hu _ ih =>
      obtain ⟨e, he, _, _, htemplate⟩ := (h.groups i u hu).interface
      have hopen : "Promise<" = "Promise" ++ "<" := rfl
      show t.entitySpelling ⟨t₁.place i⟩ = _
      rw [entitySpelling, he]
      simp only [htemplate, TypeRef.spellingWith, TypeRef.spellingsWith,
        String.intercalate_singleton, ih, hopen]
  | @parts u rs hhead length each ih =>
      exact TypeRef.spellingWith_withParts hhead (forall₂_of_zip length ih)

theorem Reads.of_handle {kind : EntityKind} {id : EntityId} {r : TypeRef}
    (h : Reads t₁ es (.entity kind id) r) :
    (∃ e, t₁.entity? id = some e ∧ r = .unlinked e.key) ∨
      ∃ i u r', kind = .interface ∧ id = ⟨t₁.place i⟩ ∧ es[i]? = some u ∧ Reads t₁ es u r' ∧
        r = .parametrized "Promise" [r'] := by
  cases h with
  | declared he => exact .inl ⟨_, he, rfl⟩
  | promise hi hr => exact .inr ⟨_, _, _, rfl, rfl, hi, hr, rfl⟩
  | parts hhead _ _ => cases hhead

theorem Reads.of_node {u r : TypeRef} (h : Reads t₁ es u r) (hhead : u.entity? = none) :
    ∃ rs, r = u.withParts rs ∧ List.Forall₂ (Reads t₁ es) u.parts rs := by
  cases h with
  | declared _ => cases hhead
  | promise _ _ => cases hhead
  | parts _ length each => exact ⟨_, rfl, forall₂_of_zip length each⟩

/-- The reading of an element that is no handle is neither a name nor a promise. -/
theorem Reads.head {u r : TypeRef} (h : Reads t₁ es u r) (hhead : u.entity? = none) {bound : Nat}
    (hu : t₁.IsElement bound u) : r.isName = false ∧ r.isPromise = false := by
  obtain ⟨rs, rfl, _⟩ := h.of_node hhead
  rw [TypeRef.isName_withParts, TypeRef.isPromise_withParts]
  have hself := hu.self
  cases u with
  | unlinked _ => exact hself.elim
  | parametrized name _ => exact ⟨rfl, beq_eq_false_iff_ne.mpr hself.2⟩
  | _ => exact ⟨rfl, rfl⟩

/-- A handle of a linked entity has the kind of the entity. -/
theorem IsElementPart.kind_of_entity {kind : EntityKind} {id : EntityId} {bound : Nat} {e : Entity}
    (h : t₁.IsElementPart bound (.entity kind id)) (he : t₁.entity? id = some e) :
    kind = e.kind := by
  rcases h with ⟨hkind, _⟩ | ⟨_, _, i, hi⟩
  · rw [kind?, he] at hkind
    exact (Option.some.inj hkind).symm
  · have := lt_of_entity? he
    omega

/-- Elements with the same reading are equal, if no record was ever taken. -/
theorem Reads.inj (ht₁ : t₁.Resolved) (hid : t₁.HasIdentifiers) (h : Made t₁ es t)
    {u v r : TypeRef} (hu : t₁.IsElement t.size u) (hv : t₁.IsElement t.size v)
    (hur : Reads t₁ es u r) (hvr : Reads t₁ es v r) : u = v := by
  induction hur generalizing v with
  | @declared kind id e he =>
      cases hhead : v.entity? with
      | none => cases (hvr.head hhead hv).1
      | some id' =>
          obtain ⟨kind', rfl⟩ := TypeRef.eq_of_entity? hhead
          rcases hvr.of_handle with ⟨e', he', hkey⟩ | ⟨_, _, _, _, _, _, _, hr⟩
          · have hlookup := (ht₁.names e.key id).mpr ⟨e, he, rfl⟩
            rw [(ht₁.names e.key id').mpr ⟨e', he', (TypeRef.unlinked.inj hkey).symm⟩] at hlookup
            cases hlookup
            rw [hu.self.kind_of_entity he, hv.self.kind_of_entity he]
          · cases hr
  | @promise i u r hi hread ih =>
      cases hhead : v.entity? with
      | none => cases (hvr.head hhead hv).2
      | some id' =>
          obtain ⟨kind', rfl⟩ := TypeRef.eq_of_entity? hhead
          rcases hvr.of_handle with ⟨_, _, hr⟩ | ⟨i', u', r', rfl, rfl, hi', hread', hr⟩
          · cases hr
          · cases hr
            obtain rfl := ih (h.isElement hi) (h.isElement hi') hread'
            have hsame := (h.exact hid i u hi).1.symm.trans (h.exact hid i' u hi').1
            obtain rfl := place_inj (EntityId.mk.inj (PromiseInstance.mk.inj (Option.some.inj hsame)).1)
            rfl
  | @parts u rs hhead length each ih =>
      have hunread := Reads.parts hhead length each
      cases hhead' : v.entity? with
      | none =>
          obtain ⟨rs', hrs, heach⟩ := hvr.of_node hhead'
          have hlen := heach.length_eq.symm
          obtain rfl : rs = rs' := by
            rw [← TypeRef.parts_withParts length, ← TypeRef.parts_withParts hlen, hrs]
          have hleft := (List.forall₂_and_left u.parts rs).mpr
            ⟨fun s hs => hu.part hs, forall₂_of_zip (R := fun s r => ∀ {w}, t₁.IsElement t.size s →
              t₁.IsElement t.size w → t₁.Reads es w r → s = w) length ih⟩
          have hright := (List.forall₂_and_left v.parts rs).mpr ⟨fun s hs => hv.part hs, heach⟩
          have hparts : u.parts = v.parts := eq_of_forall₂ (forall₂_comp
            (fun _ _ _ hs hw => hs.2 hs.1 hw.1 hw.2) hleft hright.flip)
          calc u = (u.withParts rs).withParts u.parts := by
                rw [TypeRef.withParts_withParts length rfl, TypeRef.withParts_parts]
            _ = (v.withParts rs).withParts v.parts := by rw [hrs, hparts]
            _ = v := by rw [TypeRef.withParts_withParts hlen rfl, TypeRef.withParts_parts]
      | some id' =>
          obtain ⟨kind', rfl⟩ := TypeRef.eq_of_entity? hhead'
          have hboth := hunread.head hhead hu
          rcases hvr.of_handle with ⟨_, _, hr⟩ | ⟨_, _, _, _, _, _, _, hr⟩
          · rw [hr] at hboth
            cases hboth.1
          · rw [hr] at hboth
            cases hboth.2

/-- Different elements have different spellings. -/
theorem Made.spelling_inj (ht₁ : t₁.Resolved) (hid : t₁.HasIdentifiers) (h : Made t₁ es t)
    {u v : TypeRef} (hu : t₁.IsElement t.size u) (hv : t₁.IsElement t.size v)
    (heq : t.spelling u = t.spelling v) : u = v := by
  rw [h.size] at hu hv
  obtain ⟨r, hur, hplain⟩ := h.exists_reads ht₁ hid (Nat.le_refl _) hu
  obtain ⟨r', hvr, hplain'⟩ := h.exists_reads ht₁ hid (Nat.le_refl _) hv
  rw [← h.size] at hu hv
  rw [hur.spelling_eq ht₁ h, hvr.spelling_eq ht₁ h] at heq
  obtain rfl := TypeRef.letters_injective hplain hplain' (congrArg String.toList heq)
  exact hur.inj ht₁ hid h hu hv hvr

/-! ## Growth -/

theorem getElem?_concat {α : Type} {as : List α} {a b : α} {i : Nat} :
    (as ++ [a])[i]? = some b ↔ as[i]? = some b ∨ i = as.length ∧ b = a := by
  rcases Nat.lt_trichotomy i as.length with hlt | rfl | hlt
  · rw [List.getElem?_append_left hlt]
    exact ⟨.inl, fun h => h.resolve_right fun ⟨heq, _⟩ => Nat.ne_of_lt hlt heq⟩
  · simp [eq_comm]
  · have hnone : as[i]? = none := List.getElem?_eq_none (Nat.le_of_lt hlt)
    have hnone' : (as ++ [a])[i]? = none := by
      refine List.getElem?_eq_none ?_
      rw [List.length_append]
      exact hlt
    simp [hnone, hnone', Nat.ne_of_gt hlt]

/-- A table and a later one, as long as no linked entity is rewritten. -/
structure Grown (t₁ t t' : SymbolTable) : Prop where
  entities : ∀ x e, t.entity? x = some e → t'.entity? x = some e
  marks : ∀ x, t.isInUse x = true → t'.isInUse x = true
  promises : t₁.HasIdentifiers → ∀ key made, t.promise? key = some made →
    t'.promise? key = some made

theorem Grown.refl (t₁ t : SymbolTable) : Grown t₁ t t :=
  ⟨fun _ _ h => h, fun _ h => h, fun _ _ _ h => h⟩

theorem Grown.trans {t'' : SymbolTable} (h : Grown t₁ t t') (h' : Grown t₁ t' t'') :
    Grown t₁ t t'' where
  entities x e he := h'.entities x e (h.entities x e he)
  marks x hx := h'.marks x (h.marks x hx)
  promises hid key made hkey := h'.promises hid key made (h.promises hid key made hkey)

theorem Grown.identifies (h : Grown t₁ t t') : t.Identifies t' :=
  fun x e he => ⟨e, h.entities x e he, rfl⟩

theorem Grown.size_le (h : Grown t₁ t t') : t.size ≤ t'.size := by
  refine Nat.le_of_not_lt fun hlt => ?_
  obtain ⟨e, he⟩ := entity?_of_lt (t := t) (x := ⟨t'.size⟩) hlt
  exact Nat.lt_irrefl _ (lt_of_entity? (h.entities _ e he))

theorem HoldsPromise.mono {n : Nat} (h : t.HoldsPromise n u) (hgrown : Grown t₁ t t')
    (hu : t.Knows u) : t'.HoldsPromise n u := by
  obtain ⟨package, at_, h⟩ := h
  refine ⟨package, at_, fun j e he => ?_⟩
  rw [hgrown.identifies.spelling_eq hu, hgrown.identifies.elementName_eq hu] at he
  obtain ⟨he, hused⟩ := h j e he
  exact ⟨hgrown.entities _ e he, hgrown.marks _ hused⟩

/-! ## Making a promise -/

/-- A table with the promise of one more element. -/
structure Extended (t : SymbolTable) (u : TypeRef) (t' : SymbolTable) : Prop where
  size : t'.size = t.size + 3
  names : t'.names = t.names
  old : ∀ x, x.index < t.size → t'.entity? x = t.entity? x ∧ t'.isInUse x = t.isInUse x
  new : ∃ package at_, ∀ (j : Nat) e,
    (promiseGroup package at_ (t.spelling u) (t.elementName u) u t.size)[j]? = some e →
      t'.entity? ⟨t.size + j⟩ = some e ∧ t'.isInUse ⟨t.size + j⟩ = true
  promise : ∀ key, t'.promise? key =
    if key = t.spelling u ∨ key = t.spelling u.swapStrings then some (promiseAt t.size)
    else t.promise? key

theorem Extended.identifies (h : t.Extended u t') : t.Identifies t' :=
  fun x e he => ⟨e, (h.old x (lt_of_entity? he)).1.trans he, rfl⟩

/-- Recording a promise under its two spellings is all that is done behind the new
entities. -/
theorem Added.extended {package : String} {at_ : Location}
    (h : t.Added (promiseGroup package at_ (t.spelling u) (t.elementName u) u t.size) t')
    (hu : t.Knows u.swapStrings) :
    t.Extended u (
      let recorded := t'.putPromise (t.spelling u) (promiseAt t.size)
      if u.mentionsString then
        recorded.putPromise (recorded.spelling u.swapStrings) (promiseAt t.size)
      else recorded) := by
  have hidentifies : t.Identifies (t'.putPromise (t.spelling u) (promiseAt t.size)) :=
    fun x e he => ⟨e, (h.old x (lt_of_entity? he)).1.trans he, rfl⟩
  cases hmentions : u.mentionsString with
  | true =>
      simp only [if_true, hidentifies.spelling_eq hu]
      refine ⟨h.size, h.names, h.old, ⟨package, at_, h.new⟩, fun key => ?_⟩
      simp only [promise?, putPromise, Register.find?_put, h.promises]
      by_cases hkey : key = t.spelling u
      · simp [hkey]
      · simp [hkey]
  | false =>
      simp only [Bool.false_eq_true, if_false]
      refine ⟨h.size, h.names, h.old, ⟨package, at_, h.new⟩, fun key => ?_⟩
      simp only [promise?, putPromise, Register.find?_put, h.promises,
        TypeRef.swapStrings_eq_self hmentions, or_self]

/-- What making a promise does. -/
theorem makePromise_extended {c : Compilation} (package : String) (at_ : Location)
    (hu : c.table.Knows u.swapStrings) :
    c.table.Extended u (c.makePromise package at_ (c.table.spelling u) u).1.table :=
  (added_foldl _ _).extended hu

/-- Making the promise of an element that has none yet. -/
theorem Made.extend (ht₁ : t₁.Resolved) (h : Made t₁ es t) (hu : t₁.IsElement t.size u)
    (hkey : t.promise? (t.spelling u) = none) (hext : t.Extended u t') :
    Made t₁ (es ++ [u]) t' ∧ Grown t₁ t t' := by
  have hknows : ∀ {v}, t₁.IsElement t.size v → t'.spelling v = t.spelling v := fun hv =>
    hext.identifies.spelling_eq (h.knows hv)
  have hplace : t.size = t₁.place es.length := h.size
  -- Neither spelling of the new element is recorded for another one.
  have hfree : t₁.HasIdentifiers → ∀ (i : Nat) v, es[i]? = some v → ∀ key,
      key = t.spelling u ∨ key = t.spelling u.swapStrings →
        key ≠ t.spelling v ∧ key ≠ t.spelling v.swapStrings := by
    intro hid i v hv key hk
    have hvelement := h.isElement hv
    have hinj := fun {a b} => h.spelling_inj ht₁ hid (u := a) (v := b)
    have hrecorded := h.exact hid i v hv
    have hne : t.spelling u ≠ t.spelling v ∧ t.spelling u ≠ t.spelling v.swapStrings := by
      constructor
      · intro heq
        rw [heq, hrecorded.1] at hkey
        cases hkey
      · intro heq
        rw [heq, hrecorded.2] at hkey
        cases hkey
    rcases hk with rfl | rfl
    · exact hne
    · constructor
      · intro heq
        have hswap := hinj hu.swapStrings hvelement heq
        exact hne.2 (by rw [← hswap, TypeRef.swapStrings_swapStrings])
      · intro heq
        have hswap := hinj hu.swapStrings hvelement.swapStrings heq
        exact hne.1 (by rw [← TypeRef.swapStrings_swapStrings u, hswap,
          TypeRef.swapStrings_swapStrings])
  have hgrown : Grown t₁ t t' := by
    refine ⟨fun x e he => (hext.old x (lt_of_entity? he)).1.trans he,
      fun x hx => (hext.old x (lt_of_isInUse hx)).2.trans hx, fun hid key made hmade => ?_⟩
    obtain ⟨i, v, hv, _, hkeys⟩ := h.recorded key made hmade
    rw [hext.promise, if_neg, hmade]
    intro hk
    obtain ⟨hne, hne'⟩ := hfree hid i v hv key hk
    exact hkeys.elim hne hne'
  refine ⟨?_, hgrown⟩
  refine
    { size := by rw [hext.size, hplace, List.length_append]; rfl
      names := hext.names.trans h.names
      before := fun x e₁ he₁ => ?_
      marks := fun x hx => ?_
      groups := fun i v hv => ?_
      elements := fun i v hv => ?_
      recorded := fun key made hmade => ?_
      exact := fun hid i v hv => ?_ }
  · obtain ⟨e, he, hblank⟩ := h.before x e₁ he₁
    exact ⟨e, hgrown.entities x e he, hblank⟩
  · rw [(hext.old x (Nat.lt_of_lt_of_le hx h.size_le)).2, h.marks x hx]
  · rcases getElem?_concat.mp hv with hv | ⟨rfl, rfl⟩
    · exact (h.groups i v hv).mono hgrown (h.knows (h.isElement hv))
    · obtain ⟨package, at_, hnew⟩ := hext.new
      refine ⟨package, at_, fun j e he => ?_⟩
      rw [hknows hu, hext.identifies.elementName_eq (h.knows hu), ← hplace] at he
      rw [← hplace]
      exact hnew j e he
  · rcases getElem?_concat.mp hv with hv | ⟨rfl, rfl⟩
    · exact h.elements i v hv
    · exact hplace ▸ hu
  · rw [hext.promise] at hmade
    split at hmade
    next hkeys =>
      refine ⟨es.length, u, getElem?_concat.mpr (.inr ⟨rfl, rfl⟩), ?_, ?_⟩
      · rw [← hplace]
        exact (Option.some.inj hmade).symm
      · rwa [hknows hu, hknows hu.swapStrings]
    next =>
      obtain ⟨i, v, hv, hplaced, hkeys⟩ := h.recorded key made hmade
      refine ⟨i, v, getElem?_concat.mpr (.inl hv), hplaced, ?_⟩
      rwa [hknows (h.isElement hv), hknows (h.isElement hv).swapStrings]
  · rcases getElem?_concat.mp hv with hv | ⟨rfl, rfl⟩
    · rw [hknows (h.isElement hv), hknows (h.isElement hv).swapStrings]
      obtain ⟨hmade, hmade'⟩ := h.exact hid i v hv
      exact ⟨hgrown.promises hid _ _ hmade, hgrown.promises hid _ _ hmade'⟩
    · rw [hknows hu, hknows hu.swapStrings, hext.promise, hext.promise, if_pos (.inl rfl),
        if_pos (.inr rfl), hplace]
      exact ⟨rfl, rfl⟩

/-! ## Rewriting a linked entity -/

theorem identifies_set {e e' : Entity} (he : t.entity? x = some e) (hblank : e'.blank = e.blank) :
    t.Identifies (t.set x e') := by
  intro y d hd
  by_cases hyx : y = x
  · subst hyx
    obtain rfl := Option.some.inj (hd.symm.trans he)
    exact ⟨e', entity?_set_self (lt_of_entity? he) e', Entity.identity_eq_of_blank hblank⟩
  · exact ⟨d, (t.entity?_set_of_ne hyx e').trans hd, rfl⟩

/-- The types of a linked entity can be exchanged. -/
theorem Made.set (h : Made t₁ es t) {e e' : Entity} (hx : x.index < t₁.size)
    (he : t.entity? x = some e) (hblank : e'.blank = e.blank) : Made t₁ es (t.set x e') := by
  have hidentifies := identifies_set he hblank
  have hsize : (t.set x e').size = t.size := t.size_set x e'
  have hspelling : ∀ (i : Nat) u, es[i]? = some u → (t.set x e').spelling u = t.spelling u ∧
      (t.set x e').spelling u.swapStrings = t.spelling u.swapStrings ∧
      (t.set x e').elementName u = t.elementName u := by
    intro i u hu
    have hknows := h.knows (h.isElement hu)
    exact ⟨hidentifies.spelling_eq hknows,
      hidentifies.spelling_eq (h.knows (h.isElement hu).swapStrings),
      hidentifies.elementName_eq hknows⟩
  refine
    { size := hsize.trans h.size
      names := h.names
      before := fun y e₁ he₁ => ?_
      marks := fun y hy => by rw [isInUse_set, h.marks y hy]
      groups := fun i u hu => ?_
      elements := h.elements
      recorded := fun key made hmade => ?_
      exact := fun hid i u hu => ?_ }
  · obtain ⟨d, hd, hdblank⟩ := h.before y e₁ he₁
    by_cases hyx : y = x
    · subst hyx
      obtain rfl := Option.some.inj (hd.symm.trans he)
      exact ⟨e', entity?_set_self (lt_of_entity? he) e', hblank.trans hdblank⟩
    · exact ⟨d, (t.entity?_set_of_ne hyx e').trans hd, hdblank⟩
  · obtain ⟨package, at_, hgroup⟩ := h.groups i u hu
    obtain ⟨hkey, _, hname⟩ := hspelling i u hu
    refine ⟨package, at_, fun j d hd => ?_⟩
    rw [hkey, hname] at hd
    obtain ⟨hd, hused⟩ := hgroup j d hd
    have hne : (⟨t₁.place i + j⟩ : EntityId) ≠ x := by
      rintro rfl
      exact absurd hx (Nat.not_lt.mpr (Nat.le_trans (size_le_place i) (Nat.le_add_right _ _)))
    exact ⟨(t.entity?_set_of_ne hne e').trans hd, by rw [isInUse_set, hused]⟩
  · obtain ⟨i, u, hu, hplaced, hkeys⟩ := h.recorded key made hmade
    obtain ⟨hkey, hswap, _⟩ := hspelling i u hu
    exact ⟨i, u, hu, hplaced, by rwa [hkey, hswap]⟩
  · obtain ⟨hkey, hswap, _⟩ := hspelling i u hu
    rw [hkey, hswap]
    exact h.exact hid i u hu

end SymbolTable

end IdlModel
