import IdlModel.Proofs.Presentation

/-!
# Declared names

Under which names the symbols of a table are declared, and what the steps of the stages do to
them.

*Indexed.*  Mixins, typedefs and entities are declared under their IDL names, but for the
entities made for a promise.  A table is indexed if a name stands for a symbol exactly if the
symbol is declared under it.

*Entered.*  A symbol is entered under a free name.  The table stays indexed, and what names stand
for is only extended.

*Same names.*  Nothing is declared and nothing gets another name, though entities that are made
for a promise may come.  This is all that marking, changing and putting back an entity do.
-/

namespace IdlModel

/-! ## Declared names -/

/-- The name under which an entity is declared.  One that is made for a promise has none. -/
def Entity.declaredName? (e : Entity) : Option String :=
  match e.identity.template with
  | some (.madeFor _) => none
  | _ => some e.key

namespace SymbolTable

variable {t t' t'' : SymbolTable} {x : EntityId} {e : Entity} {name : String} {symbol : Symbol}

/-- The name under which a symbol is declared. -/
def declaredName? (t : SymbolTable) : Symbol → Option String
  | .type id => (t.entity? id).bind Entity.declaredName?
  | .mixin i => t.mixins[i]?.map (·.identity.idl)
  | .typedef i => t.typedefs[i]?.map (·.idl)

/-- A name stands for a symbol exactly if the symbol is declared under it. -/
def Indexed (t : SymbolTable) : Prop :=
  ∀ name symbol, t.lookup? name = some symbol ↔ t.declaredName? symbol = some name

/-- No two symbols are declared under one name. -/
def HasDistinctNames (t : SymbolTable) : Prop :=
  ∀ symbol symbol' name, t.declaredName? symbol = some name → t.declaredName? symbol' = some name →
    symbol = symbol'

/-- A table and a later one in which nothing has lost its name. -/
structure Extends (t t' : SymbolTable) : Prop where
  lookup : ∀ name symbol, t.lookup? name = some symbol → t'.lookup? name = some symbol
  declared : ∀ symbol name, t.declaredName? symbol = some name → t'.declaredName? symbol = some name
  entities : ∀ x e, t.entity? x = some e →
    ∃ e', t'.entity? x = some e' ∧ e'.kind = e.kind ∧ e'.key = e.key

theorem Indexed.hasDistinctNames (h : t.Indexed) : t.HasDistinctNames := by
  intro symbol symbol' name hsymbol hsymbol'
  have hfound := (h name symbol).mpr hsymbol
  exact Option.some.inj (hfound.symm.trans ((h name symbol').mpr hsymbol'))

theorem Indexed.empty : Indexed {} := by
  intro name symbol
  cases symbol <;>
    simp [lookup?, Register.empty, Register.find?, Register.findIn, declaredName?, entity?]

theorem Extends.trans (h : t.Extends t') (h' : t'.Extends t'') : t.Extends t'' where
  lookup name symbol hname := h'.lookup name symbol (h.lookup name symbol hname)
  declared symbol name hsymbol := h'.declared symbol name (h.declared symbol name hsymbol)
  entities x e he := by
    obtain ⟨e', he', hkind, hkey⟩ := h.entities x e he
    obtain ⟨e'', he'', hkind', hkey'⟩ := h'.entities x e' he'
    exact ⟨e'', he'', hkind'.trans hkind, hkey'.trans hkey⟩

/-! ## Entering -/

/-- A symbol is entered under a free name. -/
structure Entered (t : SymbolTable) (name : String) (symbol : Symbol) (t' : SymbolTable) :
    Prop where
  free : t.lookup? name = none
  fresh : t.declaredName? symbol = none
  names : t'.names = t.names.put name symbol
  self : t'.declaredName? symbol = some name
  others : ∀ other, other ≠ symbol → t'.declaredName? other = t.declaredName? other
  entities : ∀ x e, t.entity? x = some e → t'.entity? x = some e

theorem Entered.lookup?_eq (h : t.Entered name symbol t') (other : String) :
    t'.lookup? other = if other = name then some symbol else t.lookup? other := by
  rw [lookup?, h.names, Register.find?_put]
  rfl

theorem Entered.indexed (h : t.Entered name symbol t') (ht : t.Indexed) : t'.Indexed := by
  intro other found
  rw [h.lookup?_eq]
  by_cases hfound : found = symbol
  · subst hfound
    rw [h.self, Option.some.injEq]
    by_cases hname : other = name
    · simp [hname]
    · rw [if_neg hname, ht, h.fresh]
      simp [Ne.symm hname]
  · rw [h.others found hfound, ← ht]
    split
    next hname =>
      rw [hname, h.free]
      simp [Ne.symm hfound]
    next => rfl

theorem Entered.extends (h : t.Entered name symbol t') : t.Extends t' where
  lookup other found hfound := by
    have hname : other ≠ name := by
      rintro rfl
      cases h.free.symm.trans hfound
    rw [h.lookup?_eq, if_neg hname, hfound]
  declared other found hfound := by
    have hother : other ≠ symbol := by
      rintro rfl
      cases h.fresh.symm.trans hfound
    rw [h.others other hother, hfound]
  entities x e he := ⟨e, h.entities x e he, rfl, rfl⟩

/-- A name without a place stands for nothing. -/
theorem Indexed.lookup?_eq_none (h : t.Indexed) (hname : t.declaredAt? name = none) :
    t.lookup? name = none := by
  cases hsymbol : t.lookup? name with
  | none => rfl
  | some symbol =>
      have hdeclared := (h name symbol).mp hsymbol
      rw [declaredAt?, hsymbol, Option.bind_some] at hname
      cases symbol
      all_goals
        rw [sourceOf?, Option.map_eq_none_iff] at hname
        simp [declaredName?, hname] at hdeclared

theorem entity?_nextId (t : SymbolTable) : t.entity? t.nextId = none :=
  (t.entity?_eq_none t.nextId).mpr (Nat.le_refl t.size)

theorem Indexed.insert (h : t.Indexed) (he : e.declaredName? = some e.key)
    (hinsert : t.insert e = .ok t') : t.Entered e.key (.type t.nextId) t' := by
  unfold SymbolTable.insert at hinsert
  split at hinsert
  next => cases hinsert
  next hplace =>
    cases hinsert
    refine
      { free := h.lookup?_eq_none hplace
        fresh := by rw [declaredName?, entity?_nextId]; rfl
        names := rfl
        self := ?_
        others := fun other hother => ?_
        entities := fun x d hd => (t.entity?_push_of_ne (ne_nextId hd) e).trans hd }
    · show ((t.push e).entity? t.nextId).bind _ = _
      rw [entity?_push_self]
      exact he
    · cases other with
      | type y =>
          have hy : y ≠ t.nextId := fun hy => hother (congrArg Symbol.type hy)
          exact congrArg (Option.bind · _) (t.entity?_push_of_ne hy e)
      | _ => rfl

theorem Indexed.insertMixin (h : t.Indexed) {d : Mixin} (hinsert : t.insertMixin d = .ok t') :
    t.Entered d.identity.idl (.mixin t.mixins.size) t' := by
  unfold SymbolTable.insertMixin at hinsert
  split at hinsert
  next => cases hinsert
  next hplace =>
    cases hinsert
    refine
      { free := h.lookup?_eq_none hplace
        fresh := by simp [declaredName?]
        names := rfl
        self := by simp [declaredName?]
        others := fun other hother => ?_
        entities := fun _ _ hd => hd }
    cases other with
    | mixin i =>
        have hi : i ≠ t.mixins.size := fun hi => hother (congrArg Symbol.mixin hi)
        simp [declaredName?, Array.getElem?_push, hi]
    | _ => rfl

theorem Indexed.insertTypedef (h : t.Indexed) {d : Typedef}
    (hinsert : t.insertTypedef d = .ok t') : t.Entered d.idl (.typedef t.typedefs.size) t' := by
  unfold SymbolTable.insertTypedef at hinsert
  split at hinsert
  next => cases hinsert
  next hplace =>
    cases hinsert
    refine
      { free := h.lookup?_eq_none hplace
        fresh := by simp [declaredName?]
        names := rfl
        self := by simp [declaredName?]
        others := fun other hother => ?_
        entities := fun _ _ hd => hd }
    cases other with
    | typedef i =>
        have hi : i ≠ t.typedefs.size := fun hi => hother (congrArg Symbol.typedef hi)
        simp [declaredName?, Array.getElem?_push, hi]
    | _ => rfl

/-! ## Everything else -/

/-- Nothing is declared and nothing gets another name. -/
structure SameNames (t t' : SymbolTable) : Prop where
  names : t'.names = t.names
  declared : t'.declaredName? = t.declaredName?
  entities : ∀ x e, t.entity? x = some e →
    ∃ e', t'.entity? x = some e' ∧ e'.kind = e.kind ∧ e'.key = e.key

theorem SameNames.refl (t : SymbolTable) : t.SameNames t :=
  ⟨rfl, rfl, fun _ e he => ⟨e, he, rfl, rfl⟩⟩

theorem SameNames.lookup?_eq (h : t.SameNames t') : t'.lookup? = t.lookup? := by
  funext name
  rw [lookup?, lookup?, h.names]

theorem SameNames.indexed (h : t.SameNames t') (ht : t.Indexed) : t'.Indexed := by
  rw [Indexed, h.lookup?_eq, h.declared]
  exact ht

theorem SameNames.extends (h : t.SameNames t') : t.Extends t' where
  lookup _ _ hname := h.lookup?_eq ▸ hname
  declared _ _ hsymbol := h.declared ▸ hsymbol
  entities := h.entities

theorem SameNames.trans (h : t.SameNames t') (h' : t'.SameNames t'') : t.SameNames t'' where
  names := h'.names.trans h.names
  declared := h'.declared.trans h.declared
  entities := (h.extends.trans h'.extends).entities

/-- Entities are exchanged for others of the same kind, name and origin. -/
theorem sameNames_of_entities (hnames : t'.names = t.names) (hmixins : t'.mixins = t.mixins)
    (htypedefs : t'.typedefs = t.typedefs) (hsize : t'.size = t.size)
    (h : ∀ x e, t.entity? x = some e → ∃ e', t'.entity? x = some e' ∧ e'.kind = e.kind ∧
      e'.key = e.key ∧ e'.identity.template = e.identity.template) : t.SameNames t' where
  names := hnames
  declared := by
    funext symbol
    cases symbol with
    | type x =>
        simp only [declaredName?]
        cases he : t.entity? x with
        | some e =>
            obtain ⟨e', he', -, hkey, htemplate⟩ := h x e he
            rw [he', Option.bind_some, Option.bind_some]
            simp only [Entity.declaredName?, hkey, htemplate]
        | none =>
            rw [t.entity?_eq_none, ← hsize, ← t'.entity?_eq_none] at he
            rw [he]
    | mixin i => simp only [declaredName?, hmixins]
    | typedef i => simp only [declaredName?, htypedefs]
  entities x e he := by
    obtain ⟨e', he', hkind, hkey, -⟩ := h x e he
    exact ⟨e', he', hkind, hkey⟩

theorem sameNames_mark (t : SymbolTable) (x : EntityId) : t.SameNames (t.mark x) :=
  sameNames_of_entities rfl rfl rfl (t.size_mark x) fun y e he =>
    ⟨e, (t.entity?_mark x y).trans he, rfl, rfl, rfl⟩

theorem sameNames_modify (t : SymbolTable) (x : EntityId) {f : Entity → Entity}
    (hf : ∀ e, (f e).kind = e.kind ∧ (f e).identity = e.identity) : t.SameNames (t.modify x f) := by
  refine sameNames_of_entities rfl rfl rfl (t.size_modify x f) fun y e he => ?_
  rw [entity?_modify, he]
  split
  · exact ⟨f e, rfl, (hf e).1, by rw [Entity.key, (hf e).2]; rfl, by rw [(hf e).2]⟩
  · exact ⟨e, rfl, rfl, rfl, rfl⟩

/-- An entity is put back as it was in an earlier table, but for its types. -/
theorem SameNames.put (h : t.SameNames t') {e' : Entity} (he : t.entity? x = some e)
    (hblank : e'.blank = e.blank) : t.SameNames (t'.set x e') := by
  obtain ⟨d, hd, -⟩ := h.entities x e he
  have hself := t'.entity?_set_self (lt_of_entity? hd) e'
  have hidentity := Entity.identity_eq_of_blank hblank
  refine ⟨h.names, ?_, fun y e₁ he₁ => ?_⟩
  · funext symbol
    cases symbol with
    | type y =>
        by_cases hy : y = x
        · subst hy
          simp only [declaredName?, hself, he, Option.bind_some, Entity.declaredName?, Entity.key,
            hidentity]
        · refine Eq.trans ?_ (congrFun h.declared (.type y))
          simp only [declaredName?, t'.entity?_set_of_ne hy]
    | mixin i => exact congrFun h.declared (.mixin i)
    | typedef i => exact congrFun h.declared (.typedef i)
  · by_cases hy : y = x
    · subst hy
      obtain rfl := Option.some.inj (he.symm.trans he₁)
      exact ⟨e', hself, Entity.kind_eq_of_blank hblank, congrArg Identity.idl hidentity⟩
    · obtain ⟨e₂, he₂, hsame⟩ := h.entities y e₁ he₁
      exact ⟨e₂, (t'.entity?_set_of_ne hy e').trans he₂, hsame⟩

theorem sameNames_setTypedef (t : SymbolTable) (i : Nat) (type : TypeRef) :
    t.SameNames (t.setTypedef i type) where
  names := rfl
  declared := by
    funext symbol
    cases symbol with
    | typedef j =>
        simp only [declaredName?, typedefs_setTypedef]
        split
        · rw [Option.map_map]
          rfl
        · rfl
    | _ => rfl
  entities _ e he := ⟨e, he, rfl, rfl⟩

theorem sameNames_extendMixin (t : SymbolTable) (i : Nat) (m : Members) :
    t.SameNames (t.extendMixin i m) where
  names := rfl
  declared := by
    funext symbol
    cases symbol with
    | mixin j =>
        simp only [declaredName?, extendMixin, Array.getElem?_modify]
        split
        · rw [Option.map_map]
          rfl
        · rfl
    | _ => rfl
  entities _ e he := ⟨e, he, rfl, rfl⟩

/-- An entity that is made for a promise has no name. -/
theorem sameNames_addInUse (t : SymbolTable) (he : e.declaredName? = none) :
    t.SameNames (t.addInUse e) := by
  suffices hpush : t.SameNames (t.push e) from hpush.trans (sameNames_mark _ t.nextId)
  refine ⟨rfl, ?_, fun x d hd => ⟨d, (t.entity?_push_of_ne (ne_nextId hd) e).trans hd, rfl, rfl⟩⟩
  funext symbol
  cases symbol with
  | type x =>
      simp only [declaredName?, entity?_push]
      split
      next hx => rw [hx, entity?_nextId, Option.bind_some, he, Option.bind_none]
      next => rfl
  | _ => rfl

theorem sameNames_putPromise (t : SymbolTable) (key : String) (made : PromiseInstance) :
    t.SameNames (t.putPromise key made) :=
  ⟨rfl, rfl, fun _ e he => ⟨e, he, rfl, rfl⟩⟩

theorem Presents.sameNames (h : t.Presents t') : t.SameNames t' := by
  refine sameNames_of_entities h.names h.mixins h.typedefs h.size fun x e he => ?_
  obtain ⟨e', he', hpresents⟩ := h.entities x e he
  exact ⟨e', he', Entity.kind_eq_of_outline hpresents.outline,
    Entity.key_eq_of_outline hpresents.outline, Entity.template_eq_of_outline hpresents.outline⟩

end SymbolTable

end IdlModel
