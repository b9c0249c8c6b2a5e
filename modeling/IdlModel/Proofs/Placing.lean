import IdlModel.Proofs.Ancestry
import IdlModel.Proofs.Expansion

/-!
# Placed entities

Before the types of an entity are resolved, the linker gives it its *place*: the
handle of its parent, and to a dictionary the members that it inherits.  Here
this is a function of the table before linking, `SymbolTable.placed`.

A type *mentions* the entities that are named in it, also through typedefs.
From some *roots* the entities are *reached* that one comes to by going from an
entity to its parent or to one that a type of it mentions.
-/

namespace IdlModel

open Relation (TransGen ReflTransGen)

/-! ## Rebuilt fields -/

/-- A field whose type is related, and nothing else changed. -/
structure Field.Rebuilt (R : TypeRef → TypeRef → Prop) (d d' : Field) : Prop where
  blank : d'.blank = d.blank
  type : R d.type d'.type

namespace Field

theorem source_eq_of_blank {d d' : Field} (h : d'.blank = d.blank) : d'.source = d.source :=
  (Field.mk.inj h).2.2.2.2.2.1

/-- Fields are rebuilt one by one if their types are and nothing else changed. -/
theorem forall₂_rebuilt {R : TypeRef → TypeRef → Prop} :
    ∀ {ds ds' : List Field}, List.Forall₂ (Field.Rebuilt R) ds ds' ↔
      ds'.map Field.blank = ds.map Field.blank ∧
        List.Forall₂ (fun x y => y.1 = x.1 ∧ R x.2 y.2) (ds.map fun d => (d.source, d.type))
          (ds'.map fun d => (d.source, d.type))
  | [], [] => by simp
  | [], _ :: _ => by simp
  | _ :: _, [] => by simp
  | d :: ds, d' :: ds' => by
      have ih := @forall₂_rebuilt R ds ds'
      simp only [List.forall₂_cons, List.map_cons, List.cons.injEq, ih]
      constructor
      · rintro ⟨⟨hblank, htype⟩, hblanks, htypes⟩
        exact ⟨⟨hblank, hblanks⟩, ⟨source_eq_of_blank hblank, htype⟩, htypes⟩
      · rintro ⟨⟨hblank, hblanks⟩, ⟨_, htype⟩, htypes⟩
        exact ⟨⟨hblank, htype⟩, hblanks, htypes⟩

end Field

namespace Entity

variable {R S T : TypeRef → TypeRef → Prop} {e e' e'' : Entity}

theorem Rebuilt.refl (hR : ∀ t, R t t) (e : Entity) : e.Rebuilt R e :=
  ⟨rfl, List.forall₂_same.mpr fun x _ => ⟨rfl, hR x.2⟩⟩

theorem Rebuilt.trans (h : e.Rebuilt R e') (h' : e'.Rebuilt S e'')
    (hT : ∀ t u v, R t u → S u v → T t v) : e.Rebuilt T e'' :=
  ⟨h'.blank.trans h.blank, forall₂_comp (fun _ _ _ hR hS =>
    ⟨hS.1.trans hR.1, hT _ _ _ hR.2 hS.2⟩) h.types h'.types⟩

/-- What a rebuilt dictionary is. -/
theorem rebuilt_dictionary {d : Dictionary} : (Entity.dictionary d).Rebuilt R e' ↔
    ∃ d', e' = .dictionary d' ∧ d'.blank = d.blank ∧
      List.Forall₂ (Field.Rebuilt R) d.members d'.members ∧
      List.Forall₂ (Field.Rebuilt R) d.inherited d'.inherited := by
  constructor
  · intro h
    obtain ⟨d', rfl⟩ : ∃ d', e' = .dictionary d' := by
      have hkind := kind_eq_of_blank h.blank
      cases e' with
      | dictionary d' => exact ⟨d', rfl⟩
      | _ => cases hkind
    have hblank : d'.blank = d.blank := Entity.dictionary.inj h.blank
    have hmembers : d'.members.map Field.blank = d.members.map Field.blank :=
      congrArg Dictionary.members hblank
    have hinherited : d'.inherited.map Field.blank = d.inherited.map Field.blank :=
      congrArg Dictionary.inherited hblank
    have htypes := h.types
    have hlength := (length_eq_of_map_eq hmembers).symm
    simp only [Entity.types, List.map_append] at htypes
    rw [forall₂_append (by simpa using hlength)] at htypes
    exact ⟨d', rfl, hblank, Field.forall₂_rebuilt.mpr ⟨hmembers, htypes.1⟩,
      Field.forall₂_rebuilt.mpr ⟨hinherited, htypes.2⟩⟩
  · rintro ⟨d', rfl, hblank, hmembers, hinherited⟩
    have hmembers := Field.forall₂_rebuilt.mp hmembers
    refine ⟨congrArg Entity.dictionary hblank, ?_⟩
    simp only [Entity.types, List.map_append]
    rw [forall₂_append (by simpa using (length_eq_of_map_eq hmembers.1).symm)]
    exact ⟨hmembers.2, (Field.forall₂_rebuilt.mp hinherited).2⟩

/-- The own members of a rebuilt entity. -/
theorem Rebuilt.fields (h : e.Rebuilt R e') : List.Forall₂ (Field.Rebuilt R) e.fields e'.fields := by
  have hkind := kind_eq_of_blank h.blank
  cases e with
  | dictionary d =>
      obtain ⟨d', rfl, _, hmembers, _⟩ := rebuilt_dictionary.mp h
      exact hmembers
  | _ =>
      cases e' with
      | dictionary _ => cases hkind
      | _ => exact .nil

/-! ## Parents and inherited members -/

@[simp] theorem kind_setParent (p : Option EntityId) (e : Entity) : (e.setParent p).kind = e.kind := by
  cases e <;> rfl

@[simp] theorem kind_setInherited (fields : List Field) (e : Entity) :
    (e.setInherited fields).kind = e.kind := by
  cases e <;> rfl

@[simp] theorem identity_setParent (p : Option EntityId) (e : Entity) :
    (e.setParent p).identity = e.identity := by
  cases e <;> rfl

@[simp] theorem identity_setInherited (fields : List Field) (e : Entity) :
    (e.setInherited fields).identity = e.identity := by
  cases e <;> rfl

@[simp] theorem fields_setParent (p : Option EntityId) (e : Entity) :
    (e.setParent p).fields = e.fields := by
  cases e <;> rfl

@[simp] theorem fields_setInherited (fields : List Field) (e : Entity) :
    (e.setInherited fields).fields = e.fields := by
  cases e <;> rfl

@[simp] theorem events_setParent (p : Option EntityId) (e : Entity) :
    (e.setParent p).events = e.events := by
  cases e <;> rfl

@[simp] theorem events_setInherited (fields : List Field) (e : Entity) :
    (e.setInherited fields).events = e.events := by
  cases e <;> rfl

@[simp] theorem types_setParent (p : Option EntityId) (e : Entity) :
    (e.setParent p).types = e.types := by
  cases e <;> rfl

@[simp] theorem parent?_setInherited (fields : List Field) (e : Entity) :
    (e.setInherited fields).parent? = e.parent? := by
  cases e <;> rfl

/-- An entity that can have a parent gets it. -/
theorem parent?_setParent {q : TypeRef} (h : e.parent? = some q) (p : EntityId) :
    (e.setParent (some p)).parent? = some (.entity e.kind p) := by
  cases e with
  | interface _ => rfl
  | dictionary _ => rfl
  | _ => cases h

/-- The types of an entity with other inherited members are its own or theirs. -/
theorem mem_types_setInherited {fields : List Field} {x : Location × TypeRef}
    (h : x ∈ (e.setInherited fields).types) :
    x ∈ e.types ∨ ∃ d ∈ fields, x = (d.source, d.type) := by
  cases e with
  | dictionary d =>
      simp only [setInherited, types, List.map_append, List.mem_append, List.mem_map] at h ⊢
      rcases h with h | ⟨d', hd', rfl⟩
      · exact .inl (.inl h)
      · exact .inr ⟨d', hd', rfl⟩
  | _ => exact .inl h

theorem rebuilt_setInherited (hR : ∀ t, R t t) (e : Entity) {fields fields' : List Field}
    (h : List.Forall₂ (Field.Rebuilt R) fields fields') :
    (e.setInherited fields).Rebuilt R (e.setInherited fields') := by
  cases e with
  | dictionary d =>
      refine rebuilt_dictionary.mpr ⟨_, rfl, ?_, ?_, h⟩
      · simp only [Dictionary.blank, (Field.forall₂_rebuilt.mp h).1]
      · exact List.forall₂_same.mpr fun x _ => ⟨rfl, hR x.type⟩
  | _ => exact .refl hR _

end Entity

/-! ## Places -/

namespace SymbolTable

variable {t t' : SymbolTable} {x y : EntityId} {e : Entity}

/-- An entity with its parent and its inherited members. -/
def placed (t : SymbolTable) (x : EntityId) (e : Entity) : Entity :=
  match t.parentOf? x with
  | none => e
  | some p => (e.setParent (some p)).setInherited (t.lineageFields p)

@[simp] theorem kind_placed : (t.placed x e).kind = e.kind := by
  unfold placed
  split <;> simp

@[simp] theorem identity_placed : (t.placed x e).identity = e.identity := by
  unfold placed
  split <;> simp

@[simp] theorem fields_placed : (t.placed x e).fields = e.fields := by
  unfold placed
  split <;> simp

@[simp] theorem events_placed : (t.placed x e).events = e.events := by
  unfold placed
  split <;> simp

theorem parentOf?_eq (he : t.entity? x = some e) :
    t.parentOf? x = e.parent?.bind fun
      | .unlinked name => (t.lookupType? name).filter (t.kind? · == some e.kind)
      | parent => parent.entity? := by
  rw [parentOf?, he]
  rfl

/-- In a declared table a parent is named and of the same kind. -/
theorem Declared.hasParent_iff (h : t.Declared) (he : t.entity? x = some e) :
    t.HasParent x y ↔ ∃ name, e.parent? = some (.unlinked name) ∧
      t.lookup? name = some (.type y) ∧ t.kind? y = some e.kind := by
  rw [HasParent, parentOf?_eq he]
  cases hp : e.parent? with
  | none => simp
  | some p =>
      obtain ⟨name, rfl⟩ := (h.entities x e he).parent p hp
      simp [Option.filter_eq_some_iff, lookupType?_eq_some]

theorem Declared.parent?_placed (h : t.Declared) (he : t.entity? x = some e)
    (hparent : t.HasParent x y) : (t.placed x e).parent? = some (.entity e.kind y) := by
  obtain ⟨name, hname, _⟩ := (h.hasParent_iff he).mp hparent
  unfold HasParent at hparent
  rw [placed, hparent, Entity.parent?_setInherited, Entity.parent?_setParent hname]

theorem placed_of_no_parent (h : t.parentOf? x = none) (e : Entity) : t.placed x e = e := by
  rw [placed, h]

/-! ## Lineages of fields -/

theorem mem_of_mem_untilRepeated {l : List EntityId} :
    ∀ {seen : List EntityId}, y ∈ untilRepeated seen l → y ∈ l := by
  induction l with
  | nil => exact fun h => h
  | cons x l ih =>
    intro seen h
    unfold untilRepeated at h
    split at h
    · cases h
    · rcases List.mem_cons.mp h with rfl | h
      · exact List.mem_cons_self
      · exact List.mem_cons_of_mem x (ih h)

/-- The members of a lineage come from the entity or its ancestors. -/
theorem mem_lineageFields {d : Field} (h : d ∈ t.lineageFields x) :
    ∃ y e, ReflTransGen t.HasParent x y ∧ t.entity? y = some e ∧ d ∈ e.fields := by
  simp only [lineageFields, List.mem_flatMap, List.mem_reverse] at h
  obtain ⟨y, hy, hd⟩ := h
  obtain ⟨e, he⟩ : ∃ e, t.entity? y = some e := by
    cases he : t.entity? y with
    | none => simp [he] at hd
    | some e => exact ⟨e, rfl⟩
  refine ⟨y, e, ?_, he, by simpa [he] using hd⟩
  rcases List.mem_cons.mp (mem_of_mem_untilRepeated hy) with rfl | hy
  · exact .refl
  · exact (mem_ancestors_iff.mp hy).to_reflTransGen

theorem chainFrom_congr (h : ∀ x, t'.parentOf? x = t.parentOf? x) (start : EntityId) (fuel : Nat)
    (before : List EntityId) (current : EntityId) :
    t'.chainFrom start fuel before current = t.chainFrom start fuel before current := by
  induction fuel generalizing before current with
  | zero => rfl
  | succ fuel ih => simp only [chainFrom, h, ih]

theorem ancestors_congr (h : ∀ x, t'.parentOf? x = t.parentOf? x) (hsize : t'.size = t.size)
    (x : EntityId) : t'.ancestors x = t.ancestors x := by
  rw [ancestors, ancestors, hsize, chainFrom_congr h]

theorem onCycle_congr (h : ∀ x, t'.parentOf? x = t.parentOf? x) : t'.OnCycle x ↔ t.OnCycle x := by
  have hparent : t'.HasParent = t.HasParent := by
    funext x y
    rw [HasParent, HasParent, h]
  rw [OnCycle, OnCycle, hparent]

/-- Parents depend on names, kinds and on what stands for a parent. -/
theorem parentOf?_congr (hnames : t'.names = t.names)
    (h : ∀ x, (t'.entity? x).map (fun e => (e.kind, e.parent?)) =
      (t.entity? x).map fun e => (e.kind, e.parent?)) (x : EntityId) :
    t'.parentOf? x = t.parentOf? x := by
  have hkind : ∀ y, t'.kind? y = t.kind? y := by
    intro y
    have := congrArg (Option.map Prod.fst) (h y)
    simpa only [kind?, Option.map_map, Function.comp_def] using this
  have hlookup := lookupType?_congr hnames
  have hx := h x
  cases he : t.entity? x with
  | none =>
      rw [he, Option.map_none, Option.map_eq_none_iff] at hx
      rw [parentOf?, parentOf?, hx, he]
      rfl
  | some e =>
      rw [he, Option.map_some, Option.map_eq_some_iff] at hx
      obtain ⟨e', he', heq⟩ := hx
      obtain ⟨hek, hep⟩ := Prod.mk.inj heq
      rw [parentOf?_eq he', parentOf?_eq he, hek, hep]
      simp only [hlookup, hkind]

theorem parentOf?_mark (t : SymbolTable) (id x : EntityId) :
    (t.mark id).parentOf? x = t.parentOf? x := by
  simp only [parentOf?, entity?_mark, kind?_mark]
  rfl

/-- Marks play no part in places. -/
theorem placed_mark (t : SymbolTable) (id x : EntityId) (e : Entity) :
    (t.mark id).placed x e = t.placed x e := by
  have hfields : ∀ p, (t.mark id).lineageFields p = t.lineageFields p := fun p => by
    simp only [lineageFields, entity?_mark,
      ancestors_congr (t.parentOf?_mark id) (t.size_mark id)]
  rw [placed, placed, parentOf?_mark]
  simp only [hfields]

/-- If the same parents are known, members that are rebuilt one by one make
lineages that are. -/
theorem lineageFields_rebuilt {R : TypeRef → TypeRef → Prop}
    (hparent : ∀ x, t'.parentOf? x = t.parentOf? x) (hsize : t'.size = t.size)
    (hfields : ∀ x, List.Forall₂ (Field.Rebuilt R) (((t.entity? x).map Entity.fields).getD [])
      (((t'.entity? x).map Entity.fields).getD [])) (x : EntityId) :
    List.Forall₂ (Field.Rebuilt R) (t.lineageFields x) (t'.lineageFields x) := by
  simp only [lineageFields, ancestors_congr hparent hsize]
  exact forall₂_flatMap fun y _ => hfields y

/-- The types of a placed entity are those that it or an ancestor declares. -/
theorem mem_types_placed {ty : Location × TypeRef} (he : t.entity? x = some e)
    (h : ty ∈ (t.placed x e).types) :
    ∃ y e', ReflTransGen t.HasParent x y ∧ t.entity? y = some e' ∧ ty ∈ e'.types := by
  unfold placed at h
  split at h
  next => exact ⟨x, e, .refl, he, h⟩
  next p hparent =>
    rcases Entity.mem_types_setInherited h with h | ⟨d, hd, rfl⟩
    · exact ⟨x, e, .refl, he, by simpa using h⟩
    · obtain ⟨y, e', hy, he', hd⟩ := mem_lineageFields hd
      refine ⟨y, e', .head hparent hy, he', ?_⟩
      cases e' with
      | dictionary d' =>
          exact List.mem_map.mpr ⟨d, List.mem_append_left _ hd, rfl⟩
      | _ => cases hd

end SymbolTable

/-! ## Mentioned and reached entities -/

/-- An entity is named in a type, perhaps through typedefs. -/
inductive Mentions (t₀ : SymbolTable) : TypeRef → EntityId → Prop
  | handle {kind : EntityKind} {id : EntityId} : Mentions t₀ (.entity kind id) id
  | type {name : String} {id : EntityId} (lookup : t₀.lookup? name = some (.type id)) :
      Mentions t₀ (.unlinked name) id
  | typedef {name : String} {i : Nat} {d : Typedef} {id : EntityId}
      (lookup : t₀.lookup? name = some (.typedef i)) (body : t₀.typedefs[i]? = some d)
      (rest : Mentions t₀ d.type id) : Mentions t₀ (.unlinked name) id
  | part {t u : TypeRef} {id : EntityId} (mem : u ∈ t.parts) (rest : Mentions t₀ u id) :
      Mentions t₀ t id

/-- An expanded type mentions nothing new. -/
theorem Expands.mentions {t₀ : SymbolTable} {t u : TypeRef} {id : EntityId} (h : Expands t₀ t u)
    (hu : Mentions t₀ u id) : Mentions t₀ t id := by
  induction h with
  | type lookup _ =>
      cases hu with
      | handle => exact .type lookup
      | part mem _ => cases mem
  | typedef lookup body _ ih => exact .typedef lookup body (ih hu)
  | @parts t us head length each ih =>
      have hstep := forall₂_of_zip (R := fun t u => Mentions t₀ u id → Mentions t₀ t id) length ih
      by_cases hparts : t.parts = []
      · rwa [TypeRef.withParts_of_parts_eq_nil hparts length] at hu
      · have hpartsOf : ∃ u ∈ us, Mentions t₀ u id := by
          generalize hw : t.withParts us = w at hu
          cases hu with
          | handle =>
              exfalso
              refine hparts ?_
              have := TypeRef.parts_withParts length
              rw [hw] at this
              exact List.length_eq_zero_iff.mp (by rw [← length, ← this]; rfl)
          | type _ =>
              have := TypeRef.isName_withParts t us
              rw [hw, head] at this
              cases this
          | typedef _ _ _ =>
              have := TypeRef.isName_withParts t us
              rw [hw, head] at this
              cases this
          | part mem rest =>
              rw [← hw, TypeRef.parts_withParts length] at mem
              exact ⟨_, mem, rest⟩
        obtain ⟨u, hu, hmention⟩ := hpartsOf
        obtain ⟨s, hs, himp⟩ := forall₂_right hstep u hu
        exact .part hs (himp hmention)

theorem Unfolds.mentions {t₀ : SymbolTable} {t u : TypeRef} {id : EntityId} (h : Unfolds t₀ t u)
    (hu : Mentions t₀ u id) : Mentions t₀ t id := by
  rcases h with rfl | h
  · exact hu
  · exact h.mentions hu

/-- The entities that are reached from some roots. -/
inductive Reached (t₀ : SymbolTable) (Root : EntityId → Prop) : EntityId → Prop
  | root {x : EntityId} (h : Root x) : Reached t₀ Root x
  | parent {x y : EntityId} (h : Reached t₀ Root x) (parent : t₀.HasParent x y) :
      Reached t₀ Root y
  | mention {x y : EntityId} {e : Entity} {ty : Location × TypeRef} (h : Reached t₀ Root x)
      (entity : t₀.entity? x = some e) (type : ty ∈ e.types) (mentions : Mentions t₀ ty.2 y) :
      Reached t₀ Root y

theorem Reached.ancestor {t₀ : SymbolTable} {Root : EntityId → Prop} {x y : EntityId}
    (h : Reached t₀ Root x) (hy : ReflTransGen t₀.HasParent x y) : Reached t₀ Root y := by
  induction hy with
  | refl => exact h
  | tail _ parent ih => exact .parent ih parent

end IdlModel
