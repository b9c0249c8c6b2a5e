import Mathlib.Data.List.Nodup
import IdlModel.Merging

/-!
# Laws of the symbol table

What the operations of the table do to its three views.  *Entities* are seen
through `entity?`, *marks* through `isInUse`, and everything else, names among
it, only changes where a declaration is entered.

Tables have the same *shape* if the same names stand for entities of the same kinds.
Changes that keep kinds keep the shape.

A table with a mark more has one *unused* entity less.  This number bounds the
visits of the linker.
-/

namespace IdlModel

/-! ## Keys of registers -/

namespace Register

variable {κ α : Type} [DecidableEq κ]

theorem mem_keys_put (r : Register κ α) (key k : κ) (value : α) :
    k ∈ (r.put key value).keys ↔ k = key ∨ k ∈ r.keys := by
  rw [← contains_iff, ← contains_iff, contains, contains, find?_put]
  split
  next h => simp [h]
  next h => simp [h]

theorem find?_eq_none_iff (r : Register κ α) (key : κ) : r.find? key = none ↔ key ∉ r.keys := by
  rw [← contains_iff, contains, Bool.not_eq_true, Option.isSome_eq_false_iff,
    Option.isNone_iff_eq_none]

theorem mem_keys_of_find? {r : Register κ α} {key : κ} {value : α} (h : r.find? key = some value) :
    key ∈ r.keys := by
  rw [← contains_iff, contains, h]
  rfl

end Register

/-! ## Handles -/

namespace EntityId

theorem index_inj {x y : EntityId} : x.index = y.index ↔ x = y := by
  cases x
  cases y
  simp

end EntityId

namespace SymbolTable

variable (t : SymbolTable) (id x : EntityId)

/-! ## Ranges -/

theorem isSome_entity? : (t.entity? x).isSome = true ↔ x.index < t.size := by
  simp [entity?, size, isSome_getElem?]

theorem entity?_of_lt {t : SymbolTable} {x : EntityId} (h : x.index < t.size) :
    ∃ e, t.entity? x = some e :=
  Option.isSome_iff_exists.mp ((t.isSome_entity? x).mpr h)

theorem lt_of_entity? {t : SymbolTable} {x : EntityId} {e : Entity} (h : t.entity? x = some e) :
    x.index < t.size :=
  (t.isSome_entity? x).mp (by rw [h]; rfl)

theorem entity?_eq_none : t.entity? x = none ↔ t.size ≤ x.index := by
  simp [entity?, size]

theorem lt_of_isInUse {t : SymbolTable} {x : EntityId} (h : t.isInUse x = true) :
    x.index < t.size := by
  unfold isInUse at h
  split at h
  next slot hslot => exact (Array.getElem?_eq_some_iff.mp hslot).1
  next => exact absurd h Bool.false_ne_true

theorem mem_ids : x ∈ t.ids ↔ x.index < t.size := by
  simp only [ids, List.mem_map, List.mem_range]
  constructor
  · rintro ⟨i, hi, rfl⟩
    exact hi
  · intro h
    exact ⟨x.index, h, rfl⟩

theorem nodup_ids : t.ids.Nodup :=
  List.nodup_range.map fun _ _ h => congrArg EntityId.index h

theorem mem_idsOf {kind : EntityKind} :
    x ∈ t.idsOf kind ↔ ∃ e, t.entity? x = some e ∧ e.kind = kind := by
  rw [idsOf, List.mem_filter, mem_ids, beq_iff_eq, kind?, Option.map_eq_some_iff]
  constructor
  · rintro ⟨_, e, he, hk⟩
    exact ⟨e, he, hk⟩
  · rintro ⟨e, he, hk⟩
    exact ⟨lt_of_entity? he, e, he, hk⟩

theorem mem_idsInUse : x ∈ t.idsInUse ↔ t.isInUse x = true := by
  rw [idsInUse, List.mem_filter, mem_ids, and_iff_right_iff_imp]
  exact lt_of_isInUse

theorem nodup_idsInUse : t.idsInUse.Nodup := t.nodup_ids.filter _

theorem kind?_eq_some {k : EntityKind} :
    t.kind? x = some k ↔ ∃ e, t.entity? x = some e ∧ e.kind = k :=
  Option.map_eq_some_iff

theorem kind?_eq {t : SymbolTable} {x : EntityId} {e : Entity} (he : t.entity? x = some e) :
    t.kind? x = some e.kind := by
  rw [kind?, he, Option.map_some]

theorem exists_interface (h : t.kind? x = some .interface) :
    ∃ d, t.entity? x = some (.interface d) := by
  obtain ⟨e, he, hkind⟩ := (t.kind?_eq_some x).mp h
  cases e with
  | interface d => exact ⟨d, he⟩
  | _ => cases hkind

/-- The interface of a handle, if it is one. -/
def interface? (t : SymbolTable) (x : EntityId) : Option Interface :=
  match t.entity? x with
  | some (.interface d) => some d
  | _ => none

theorem interface?_eq_some {t : SymbolTable} {x : EntityId} {d : Interface} :
    t.interface? x = some d ↔ t.entity? x = some (.interface d) := by
  unfold interface?
  split
  next d' hd' => simp [hd']
  next hne => simpa using hne d

/-! ## Changing an entity -/

theorem entity?_modify (f : Entity → Entity) :
    (t.modify id f).entity? x = if x = id then (t.entity? x).map f else t.entity? x := by
  simp only [modify, entity?, Array.getElem?_modify, EntityId.index_inj, eq_comm (a := id)]
  split <;> simp [Function.comp_def]

theorem entity?_modify_self {t : SymbolTable} {id : EntityId} {e : Entity}
    (h : t.entity? id = some e) (f : Entity → Entity) :
    (t.modify id f).entity? id = some (f e) := by
  rw [entity?_modify, if_pos rfl, h, Option.map_some]

theorem entity?_modify_of_ne {x id : EntityId} (h : x ≠ id) (f : Entity → Entity) :
    (t.modify id f).entity? x = t.entity? x := by
  rw [entity?_modify, if_neg h]

@[simp] theorem isInUse_modify (f : Entity → Entity) :
    (t.modify id f).isInUse x = t.isInUse x := by
  simp only [modify, isInUse, Array.getElem?_modify]
  by_cases h : id.index = x.index
  · rw [if_pos h]
    cases t.slots[x.index]? <;> rfl
  · rw [if_neg h]

theorem entity?_set_self {t : SymbolTable} {id : EntityId} (h : id.index < t.size) (e : Entity) :
    (t.set id e).entity? id = some e := by
  obtain ⟨_, hold⟩ := entity?_of_lt h
  exact entity?_modify_self hold _

theorem entity?_set_of_ne {x id : EntityId} (h : x ≠ id) (e : Entity) :
    (t.set id e).entity? x = t.entity? x :=
  t.entity?_modify_of_ne h _

/-- A change of a known entity is an exchange. -/
theorem modify_eq_set {t : SymbolTable} {id : EntityId} {e : Entity} (h : t.entity? id = some e)
    (f : Entity → Entity) : t.modify id f = t.set id (f e) := by
  have hslots : t.slots.modify id.index (fun slot => { slot with entity := f slot.entity }) =
      t.slots.modify id.index (fun slot => { slot with entity := f e }) := by
    refine Array.ext_getElem? fun i => ?_
    rw [Array.getElem?_modify, Array.getElem?_modify]
    split
    next hi =>
      cases hslot : t.slots[i]? with
      | none => rfl
      | some slot =>
          have he : slot.entity = e := by simpa [entity?, hi, hslot] using h
          rw [Option.map_some, Option.map_some, he]
    next => rfl
  rw [set, modify, modify, hslots]

/-- An exchange for itself changes nothing. -/
theorem set_self {t : SymbolTable} {id : EntityId} {e : Entity} (h : t.entity? id = some e) :
    t.set id e = t := by
  rw [← modify_eq_set (f := fun e => e) h]
  have hslots : t.slots.modify id.index (fun slot => { slot with entity := slot.entity }) =
      t.slots := by
    refine Array.ext_getElem? fun i => ?_
    rw [Array.getElem?_modify]
    split
    next => exact Option.map_id'
    next => rfl
  rw [modify, hslots]

/-- Exchanges of two entities can change their places. -/
theorem set_comm {x y : EntityId} (h : x ≠ y) (e e' : Entity) :
    (t.set x e).set y e' = (t.set y e').set x e := by
  have hindex : x.index ≠ y.index := fun hindex => h (EntityId.index_inj.mp hindex)
  have hslots : ((t.set x e).set y e').slots = ((t.set y e').set x e).slots := by
    refine Array.ext_getElem? fun i => ?_
    simp only [set, modify, Array.getElem?_modify]
    by_cases hx : x.index = i
    · have hy : y.index ≠ i := fun hy => hindex (hx.trans hy.symm)
      rw [if_neg hy, if_neg hy]
    · rw [if_neg hx, if_neg hx]
  show { t with slots := ((t.set x e).set y e').slots } = _
  rw [hslots]
  rfl

@[simp] theorem isInUse_set (e : Entity) : (t.set id e).isInUse x = t.isInUse x :=
  t.isInUse_modify id x _

/-! ## Marking an entity -/

@[simp] theorem entity?_mark : (t.mark id).entity? x = t.entity? x := by
  simp only [mark, entity?, Array.getElem?_modify]
  by_cases h : id.index = x.index
  · rw [if_pos h]
    cases t.slots[x.index]? <;> rfl
  · rw [if_neg h]

@[simp] theorem kind?_mark : (t.mark id).kind? x = t.kind? x := by
  rw [kind?, kind?, entity?_mark]

theorem isInUse_mark_self {t : SymbolTable} {id : EntityId} (h : id.index < t.size) :
    (t.mark id).isInUse id = true := by
  have hslot : t.slots[id.index]? = some t.slots[id.index] := Array.getElem?_eq_getElem h
  simp [mark, isInUse, Array.getElem?_modify, hslot]

theorem isInUse_mark_of_ne {x id : EntityId} (h : x ≠ id) :
    (t.mark id).isInUse x = t.isInUse x := by
  have hne : id.index ≠ x.index := fun heq => h (EntityId.index_inj.mp heq).symm
  simp only [mark, isInUse, Array.getElem?_modify, if_neg hne]

theorem isInUse_mark {t : SymbolTable} {id x : EntityId} (h : id.index < t.size) :
    (t.mark id).isInUse x = true ↔ x = id ∨ t.isInUse x = true := by
  by_cases hx : x = id
  · subst hx
    simp [isInUse_mark_self h]
  · simp [t.isInUse_mark_of_ne hx, hx]

/-- A mark that is there changes nothing. -/
theorem mark_of_isInUse {t : SymbolTable} {x : EntityId} (h : t.isInUse x = true) :
    t.mark x = t := by
  have hslots : t.slots.modify x.index (fun slot => { slot with inUse := true }) = t.slots := by
    refine Array.ext_getElem? fun i => ?_
    rw [Array.getElem?_modify]
    split
    next heq =>
      subst heq
      cases hslot : t.slots[x.index]? with
      | none => rfl
      | some slot =>
          have hused : slot.inUse = true := by simpa [isInUse, hslot] using h
          rw [Option.map_some, ← hused]
    next => rfl
  rw [mark, hslots]

/-! ## Adding an entity -/

theorem entity?_push_self (e : Entity) : (t.push e).entity? t.nextId = some e := by
  simp [push, entity?, nextId, size]

theorem entity?_push_of_ne {x : EntityId} (h : x ≠ t.nextId) (e : Entity) :
    (t.push e).entity? x = t.entity? x := by
  have hne : x.index ≠ t.slots.size := fun heq => h (EntityId.index_inj.mp heq)
  simp [push, entity?, Array.getElem?_push, hne]

theorem entity?_push (e : Entity) :
    (t.push e).entity? x = if x = t.nextId then some e else t.entity? x := by
  split
  next h => rw [h, entity?_push_self]
  next h => exact t.entity?_push_of_ne h e

@[simp] theorem isInUse_push (e : Entity) : (t.push e).isInUse x = t.isInUse x := by
  simp only [push, isInUse, Array.getElem?_push]
  by_cases h : x.index = t.slots.size
  · simp [h]
  · rw [if_neg h]

theorem ne_nextId {t : SymbolTable} {x : EntityId} {e : Entity} (h : t.entity? x = some e) :
    x ≠ t.nextId := by
  rintro rfl
  exact Nat.lt_irrefl _ (lt_of_entity? h)

/-! ## What stays -/

theorem typedefs_setTypedef (i j : Nat) (type : TypeRef) :
    (t.setTypedef i type).typedefs[j]? =
      if i = j then t.typedefs[j]?.map ({ · with type }) else t.typedefs[j]? := by
  simp [setTypedef, Array.getElem?_modify]

/-! ## Shapes -/

section Shape

variable {t t' t'' : SymbolTable} {x : EntityId} {e : Entity}

theorem lookupType?_eq_some {name : String} :
    t.lookupType? name = some x ↔ t.lookup? name = some (.type x) := by
  unfold lookupType?
  split <;> simp_all

/-- The same names stand for the same entities. -/
theorem lookupType?_congr (h : t'.names = t.names) : t'.lookupType? = t.lookupType? := by
  funext name
  rw [lookupType?, lookupType?, lookup?, lookup?, h]

/-- The same names stand for entities of the same kinds. -/
structure SameShape (t t' : SymbolTable) : Prop where
  names : t'.names = t.names
  size : t'.size = t.size
  kinds : ∀ x, t'.kind? x = t.kind? x

theorem SameShape.refl (t : SymbolTable) : t.SameShape t := ⟨rfl, rfl, fun _ => rfl⟩

theorem SameShape.trans (h : t.SameShape t') (h' : t'.SameShape t'') : t.SameShape t'' :=
  ⟨h'.names.trans h.names, h'.size.trans h.size, fun x => (h'.kinds x).trans (h.kinds x)⟩

theorem SameShape.lookupType?_eq (h : t.SameShape t') : t'.lookupType? = t.lookupType? :=
  lookupType?_congr h.names

theorem sameShape_mark (t : SymbolTable) (x : EntityId) : t.SameShape (t.mark x) :=
  ⟨rfl, t.size_mark x, t.kind?_mark x⟩

theorem sameShape_modify (t : SymbolTable) (x : EntityId) {f : Entity → Entity}
    (hf : ∀ e, (f e).kind = e.kind) : t.SameShape (t.modify x f) := by
  refine ⟨rfl, t.size_modify x f, fun y => ?_⟩
  rw [kind?, kind?, entity?_modify]
  split
  · rw [Option.map_map, Function.comp_def]
    simp only [hf]
  · rfl

theorem sameShape_set (he : t.kind? x = some e.kind) : t.SameShape (t.set x e) := by
  refine ⟨rfl, t.size_set x e, fun y => ?_⟩
  by_cases hy : y = x
  · obtain ⟨d, hd, _⟩ := (t.kind?_eq_some x).mp he
    rw [hy, he, kind?_eq (entity?_set_self (lt_of_entity? hd) e)]
  · rw [kind?, kind?, entity?_set_of_ne t hy]

end Shape

/-! ## Unused entities -/

/-- The number of entities that are not in use. -/
def unused : Nat := t.ids.countP fun x => !t.isInUse x

/-- Counting by two tests that differ at one element. -/
theorem countP_eq_succ {α : Type} {p q : α → Bool} {a : α} (hp : p a = true) (hq : q a = false)
    (hpq : ∀ x, x ≠ a → p x = q x) :
    ∀ {l : List α}, l.Nodup → a ∈ l → l.countP p = l.countP q + 1
  | b :: l, hl, ha => by
      obtain ⟨hb, hl⟩ := List.nodup_cons.mp hl
      rcases List.mem_cons.mp ha with rfl | ha
      · have hrest : l.countP p = l.countP q :=
          List.countP_congr fun x hx => by rw [hpq x fun h => hb (h ▸ hx)]
        rw [List.countP_cons_of_pos hp, List.countP_cons_of_neg (by simp [hq]), hrest]
      · have ih := countP_eq_succ hp hq hpq hl ha
        have hne : b ≠ a := fun h => hb (h ▸ ha)
        rw [List.countP_cons, List.countP_cons, hpq b hne, ih]
        omega

theorem unused_mark {t : SymbolTable} {id : EntityId} (hlt : id.index < t.size)
    (h : t.isInUse id = false) : t.unused = (t.mark id).unused + 1 := by
  have hids : (t.mark id).ids = t.ids := by rw [ids, ids, size_mark]
  rw [unused, unused, hids]
  refine countP_eq_succ (a := id) (by simp [h]) (by simp [isInUse_mark_self hlt]) ?_ t.nodup_ids
    ((t.mem_ids id).mpr hlt)
  intro x hx
  rw [t.isInUse_mark_of_ne hx]

/-- Tables with the same size and marks have the same number. -/
theorem unused_congr {t t' : SymbolTable} (hsize : t'.size = t.size)
    (h : ∀ x, t'.isInUse x = t.isInUse x) : t'.unused = t.unused := by
  simp only [unused, ids, hsize, h]

/-- A table of the same size with more in use has fewer unused. -/
theorem unused_le_unused {t t' : SymbolTable} (hsize : t'.size = t.size)
    (h : ∀ x, t.isInUse x = true → t'.isInUse x = true) : t'.unused ≤ t.unused := by
  have hids : t'.ids = t.ids := by rw [ids, ids, hsize]
  rw [unused, unused, hids]
  refine List.countP_mono_left fun x _ hx => ?_
  cases hu : t.isInUse x with
  | false => rfl
  | true => simp [h x hu] at hx

/-- If none is unused, all are in use. -/
theorem isInUse_of_unused {t : SymbolTable} {x : EntityId} (h : t.unused = 0)
    (hlt : x.index < t.size) : t.isInUse x = true := by
  have hall := List.countP_eq_zero.mp h x ((t.mem_ids x).mpr hlt)
  simpa using hall

theorem unused_le_size : t.unused ≤ t.size := by
  calc t.unused ≤ t.ids.length := List.countP_le_length
    _ = t.size := by simp [ids]

/-- Every entity is in use or not. -/
theorem length_idsInUse_add_unused : t.idsInUse.length + t.unused = t.size := by
  have hsplit := List.length_eq_countP_add_countP t.isInUse (l := t.ids)
  have hids : t.ids.length = t.size := by simp [ids]
  rw [idsInUse, ← List.countP_eq_length_filter, unused, ← hids, hsplit]
  congr 1
  exact List.countP_congr fun x _ => by simp

end SymbolTable

end IdlModel
