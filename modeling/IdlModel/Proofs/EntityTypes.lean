import IdlModel.Model.Entity
import IdlModel.Proofs.Parts

/-!
# The types of an entity

`Entity.mapTypesM` walks over the types of an entity, and `Entity.types` lists
them.  The two agree: a walk acts on the listed types in their order, and all
that it changes of the entity is these types.

* `Entity.types_mapTypesM` says which types the rebuilt entity has.
* `Entity.blank_mapTypesM` says that nothing else changed.  The *blank* of an
  entity is the entity with `void` in the place of each type.
* `Entity.eq_of_blank` says that the blank and the types are all there is.
-/

namespace IdlModel

/-! ## Blanks -/

/-- A parameter without its type. -/
def Parameter.blank (d : Parameter) : Parameter := { d with type := .void }

/-- A method without its types. -/
def Method.blank (d : Method) : Method :=
  { d with result := .void, params := d.params.map Parameter.blank }

/-- A constant without its type. -/
def Constant.blank (d : Constant) : Constant := { d with type := .void }

/-- An attribute without its type. -/
def Attribute.blank (d : Attribute) : Attribute := { d with type := .void }

/-- A field without its type. -/
def Field.blank (d : Field) : Field := { d with type := .void }

/-- Members without their types. -/
def Members.blank (d : Members) : Members :=
  { constants := d.constants.map Constant.blank
    attributes := d.attributes.map Attribute.blank
    staticAttributes := d.staticAttributes.map Attribute.blank
    methods := d.methods.map Method.blank
    staticMethods := d.staticMethods.map Method.blank }

/-- An interface without its types. -/
def Interface.blank (d : Interface) : Interface :=
  { d with members := d.members.blank, constructor := d.constructor.map Method.blank }

/-- A dictionary without its types. -/
def Dictionary.blank (d : Dictionary) : Dictionary :=
  { d with members := d.members.map Field.blank, inherited := d.inherited.map Field.blank }

/-- A callback without its types. -/
def Callback.blank (d : Callback) : Callback :=
  { d with result := .void, params := d.params.map Parameter.blank }

/-- An entity without its types. -/
def Entity.blank : Entity → Entity
  | .interface d => .interface d.blank
  | .dictionary d => .dictionary d.blank
  | .enumeration d => .enumeration d
  | .callback d => .callback d.blank

/-! ## What an action always gives -/

/-- Every result of an action has a property. -/
def Always {m : Type → Type} [Monad m] {α : Type} (p : α → Prop) (x : m α) : Prop :=
  ∃ y : m { a // p a }, Subtype.val <$> y = x

namespace Always

variable {m : Type → Type} [Monad m] [LawfulMonad m] {α β : Type}

theorem pure {p : α → Prop} {a : α} (h : p a) : Always p (Pure.pure a : m α) :=
  ⟨Pure.pure ⟨a, h⟩, by simp⟩

theorem any (x : m α) : Always (fun _ => True) x :=
  ⟨(fun a => ⟨a, trivial⟩) <$> x, by simp⟩

theorem bind {p : α → Prop} {q : β → Prop} {x : m α} {f : α → m β} (hx : Always p x)
    (hf : ∀ a, p a → Always q (f a)) : Always q (x >>= f) := by
  obtain ⟨y, rfl⟩ := hx
  refine ⟨y >>= fun a => (hf a.1 a.2).choose, ?_⟩
  rw [map_bind, bind_map_left]
  exact bind_congr fun a => (hf a.1 a.2).choose_spec

theorem map {p : α → Prop} {q : β → Prop} {x : m α} {f : α → β} (hx : Always p x)
    (hf : ∀ a, p a → q (f a)) : Always q (f <$> x) := by
  rw [map_eq_pure_bind]
  exact hx.bind fun a ha => Always.pure (hf a ha)

/-- If no element changes its view, a list of elements keeps its views. -/
theorem mapM {v : α → β} {g : α → m α} (h : ∀ a, Always (fun b => v b = v a) (g a))
    (as : List α) : Always (fun bs => bs.map v = as.map v) (as.mapM g) := by
  induction as with
  | nil => exact Always.pure rfl
  | cons a as ih =>
    rw [List.mapM_cons]
    refine (h a).bind fun b hb => ih.bind fun bs hbs => Always.pure ?_
    rw [List.map_cons, List.map_cons, hb, hbs]

theorem run {σ : Type} {p : α → Prop} {x : StateM σ α} (h : Always p x) (s : σ) :
    p (x.run s).1 := by
  obtain ⟨y, rfl⟩ := h
  exact (y.run s).1.2

theorem ofId {p : α → Prop} {x : Id α} (h : Always p x) : p x.run := by
  obtain ⟨y, rfl⟩ := h
  exact y.run.2

end Always

/-! ## Lists of declarations -/

section Lists

variable {m : Type → Type} [Monad m] [LawfulMonad m] {α β : Type}

/-- If a rebuilt element lists what a walk over its list gives, so does a rebuilt
list of elements. -/
theorem flatMap_mapM {g : α → m α} {list : α → List β} {walk : β → m β}
    (h : ∀ x, list <$> g x = (list x).mapM walk) (xs : List α) :
    List.flatMap list <$> xs.mapM g = (xs.flatMap list).mapM walk := by
  induction xs with
  | nil => simp
  | cons x xs ih =>
    rw [List.flatMap_cons, List.mapM_append, ← h, ← ih]
    simp [List.mapM_cons]

/-- The same for elements that list one thing. -/
theorem map_mapM {g : α → m α} {one : α → β} {walk : β → m β}
    (h : ∀ x, one <$> g x = walk (one x)) (xs : List α) :
    List.map one <$> xs.mapM g = (xs.map one).mapM walk := by
  induction xs with
  | nil => simp
  | cons x xs ih =>
    simp only [List.map_cons, List.mapM_cons, ← h, ← ih]
    simp

end Lists

/-! ## Walks -/

section Walks

variable {m : Type → Type} [Monad m] [LawfulMonad m] (f : Location → TypeRef → m TypeRef)

/-- A walk at one listed type. -/
def walkType (x : Location × TypeRef) : m (Location × TypeRef) := (x.1, ·) <$> f x.1 x.2

theorem Parameter.types_mapTypesM (source : Location) (ds : List Parameter) :
    Parameter.types source <$> Parameter.mapTypesM f source ds =
      (Parameter.types source ds).mapM (walkType f) :=
  map_mapM (fun d => by simp [walkType]) ds

theorem Parameter.blank_mapTypesM (source : Location) (ds : List Parameter) :
    Always (fun ds' => ds'.map Parameter.blank = ds.map Parameter.blank)
      (Parameter.mapTypesM f source ds) := by
  refine Always.mapM (v := Parameter.blank) (fun d => ?_) ds
  exact (Always.any _).bind fun _ _ => Always.pure rfl

theorem Method.types_mapTypesM (d : Method) :
    Method.types <$> Method.mapTypesM f d = d.types.mapM (walkType f) := by
  rw [Method.types, List.mapM_cons, ← Parameter.types_mapTypesM]
  simp [Method.mapTypesM, walkType, Method.types]

theorem Method.blank_mapTypesM (d : Method) :
    Always (fun d' => d'.blank = d.blank) (Method.mapTypesM f d) :=
  (Always.any _).bind fun _ _ => (Parameter.blank_mapTypesM f d.source d.params).bind
    fun _ hparams => Always.pure (by simp only [Method.blank, hparams])

theorem Constant.types_mapTypesM (ds : List Constant) :
    List.map (fun d => (d.source, d.type)) <$> Constant.mapTypesM f ds =
      (ds.map fun d => (d.source, d.type)).mapM (walkType f) :=
  map_mapM (fun d => by simp [walkType]) ds

theorem Constant.blank_mapTypesM (ds : List Constant) :
    Always (fun ds' => ds'.map Constant.blank = ds.map Constant.blank)
      (Constant.mapTypesM f ds) := by
  refine Always.mapM (v := Constant.blank) (fun d => ?_) ds
  exact (Always.any _).bind fun _ _ => Always.pure rfl

theorem Attribute.types_mapTypesM (ds : List Attribute) :
    List.map (fun d => (d.source, d.type)) <$> Attribute.mapTypesM f ds =
      (ds.map fun d => (d.source, d.type)).mapM (walkType f) :=
  map_mapM (fun d => by simp [walkType]) ds

theorem Attribute.blank_mapTypesM (ds : List Attribute) :
    Always (fun ds' => ds'.map Attribute.blank = ds.map Attribute.blank)
      (Attribute.mapTypesM f ds) := by
  refine Always.mapM (v := Attribute.blank) (fun d => ?_) ds
  exact (Always.any _).bind fun _ _ => Always.pure rfl

theorem Field.types_mapTypesM (ds : List Field) :
    List.map (fun d => (d.source, d.type)) <$> Field.mapTypesM f ds =
      (ds.map fun d => (d.source, d.type)).mapM (walkType f) :=
  map_mapM (fun d => by simp [walkType]) ds

theorem Field.blank_mapTypesM (ds : List Field) :
    Always (fun ds' => ds'.map Field.blank = ds.map Field.blank) (Field.mapTypesM f ds) := by
  refine Always.mapM (v := Field.blank) (fun d => ?_) ds
  exact (Always.any _).bind fun _ _ => Always.pure rfl

theorem Members.types_mapTypesM (d : Members) :
    Members.types <$> Members.mapTypesM f d = d.types.mapM (walkType f) := by
  simp only [Members.types, List.mapM_append, ← Constant.types_mapTypesM,
    ← Attribute.types_mapTypesM, ← flatMap_mapM (Method.types_mapTypesM f)]
  simp [Members.mapTypesM, Members.types]

theorem Members.blank_mapTypesM (d : Members) :
    Always (fun d' => d'.blank = d.blank) (Members.mapTypesM f d) :=
  (Constant.blank_mapTypesM f d.constants).bind fun _ hconstants =>
    (Attribute.blank_mapTypesM f d.attributes).bind fun _ hattributes =>
      (Attribute.blank_mapTypesM f d.staticAttributes).bind fun _ hstatic =>
        (Always.mapM (Method.blank_mapTypesM f) d.methods).bind fun _ hmethods =>
          (Always.mapM (Method.blank_mapTypesM f) d.staticMethods).bind fun _ hstaticMethods =>
            Always.pure (by
              simp only [Members.blank, hconstants, hattributes, hstatic, hmethods,
                hstaticMethods])

theorem Entity.types_mapTypesM (e : Entity) :
    Entity.types <$> e.mapTypesM f = e.types.mapM (walkType f) := by
  cases e with
  | interface d =>
      simp only [Entity.types, List.mapM_append, ← Members.types_mapTypesM]
      cases hc : d.constructor with
      | none => simp [Entity.mapTypesM, Interface.mapTypesM, hc, Entity.types]
      | some method =>
          have := Method.types_mapTypesM f method
          simp [Entity.mapTypesM, Interface.mapTypesM, hc, Entity.types, ← this]
  | dictionary d =>
      simp only [Entity.types, List.map_append, List.mapM_append, ← Field.types_mapTypesM]
      simp [Entity.mapTypesM, Dictionary.mapTypesM, Entity.types]
  | enumeration d => simp [Entity.mapTypesM, Entity.types]
  | callback d =>
      simp only [Entity.types, List.mapM_cons, ← Parameter.types_mapTypesM]
      simp [Entity.mapTypesM, Callback.mapTypesM, Entity.types, walkType]

theorem Entity.blank_mapTypesM (e : Entity) :
    Always (fun e' => e'.blank = e.blank) (e.mapTypesM f) := by
  cases e with
  | interface d =>
      refine Always.map (p := fun d' => d'.blank = d.blank) ?_ fun d' h => by
        simp only [Entity.blank, h]
      refine (Members.blank_mapTypesM f d.members).bind fun members hmembers => ?_
      obtain ⟨identity, own, constructor, parent, global, callback, events⟩ := d
      replace hmembers : members.blank = own.blank := hmembers
      cases constructor with
      | none =>
          refine (Always.pure (p := fun o => o = none) rfl).bind fun o ho => Always.pure ?_
          simp only [Interface.blank, hmembers, ho]
      | some method =>
          refine ((Method.blank_mapTypesM f method).map fun d' h => ?_).bind
            (p := fun o => o.map Method.blank = some method.blank) fun o ho => Always.pure ?_
          · rw [Option.map_some, h]
          · simp only [Interface.blank, hmembers, ho, Option.map_some]
  | dictionary d =>
      refine Always.map (p := fun d' => d'.blank = d.blank) ?_ fun d' h => by
        simp only [Entity.blank, h]
      exact (Field.blank_mapTypesM f d.members).bind fun _ hmembers =>
        (Field.blank_mapTypesM f d.inherited).bind fun _ hinherited =>
          Always.pure (by simp only [Dictionary.blank, hmembers, hinherited])
  | enumeration d => exact Always.pure rfl
  | callback d =>
      refine Always.map (p := fun d' => d'.blank = d.blank) ?_ fun d' h => by
        simp only [Entity.blank, h]
      exact (Always.any _).bind fun _ _ =>
        (Parameter.blank_mapTypesM f d.identity.source d.params).bind fun _ hparams =>
          Always.pure (by simp only [Callback.blank, hparams])

end Walks

/-! ## What a blank shows -/

namespace Entity

/-- The events of an interface, and none of any other entity. -/
def events : Entity → List Event
  | .interface d => d.events
  | _ => []

@[simp] theorem kind_blank (e : Entity) : e.blank.kind = e.kind := by cases e <;> rfl

@[simp] theorem identity_blank (e : Entity) : e.blank.identity = e.identity := by cases e <;> rfl

@[simp] theorem parent?_blank (e : Entity) : e.blank.parent? = e.parent? := by cases e <;> rfl

@[simp] theorem events_blank (e : Entity) : e.blank.events = e.events := by cases e <;> rfl

variable {e e' : Entity}

theorem kind_eq_of_blank (h : e'.blank = e.blank) : e'.kind = e.kind := by
  rw [← kind_blank, h, kind_blank]

theorem identity_eq_of_blank (h : e'.blank = e.blank) : e'.identity = e.identity := by
  rw [← identity_blank, h, identity_blank]

theorem parent?_eq_of_blank (h : e'.blank = e.blank) : e'.parent? = e.parent? := by
  rw [← parent?_blank, h, parent?_blank]

theorem events_eq_of_blank (h : e'.blank = e.blank) : e'.events = e.events := by
  rw [← events_blank, h, events_blank]

end Entity

/-! ## The blank and the types are all there is -/

section Extensional

variable {α β γ : Type} {v : α → γ}

/-- Lists with equal views are equally long. -/
theorem length_eq_of_map_eq {as bs : List α} (h : as.map v = bs.map v) :
    as.length = bs.length := by
  simpa using congrArg List.length h

/-- Lists with equal views list equally much if equal views do. -/
theorem length_flatMap_eq {list : α → List β}
    (hlen : ∀ a b, v a = v b → (list a).length = (list b).length) :
    ∀ {as bs : List α}, as.map v = bs.map v →
      (as.flatMap list).length = (bs.flatMap list).length
  | [], [], _ => rfl
  | [], _ :: _, h => by simp at h
  | _ :: _, [], h => by simp at h
  | a :: as, b :: bs, h => by
      simp only [List.map_cons, List.cons.injEq] at h
      rw [List.flatMap_cons, List.flatMap_cons, List.length_append, List.length_append,
        hlen a b h.1, length_flatMap_eq hlen h.2]

/-- Lists with equal views are equal as soon as all they list is. -/
theorem eq_of_flatMap_eq {list : α → List β}
    (hlen : ∀ a b, v a = v b → (list a).length = (list b).length)
    (hext : ∀ a b, v a = v b → list a = list b → a = b) :
    ∀ {as bs : List α}, as.map v = bs.map v → as.flatMap list = bs.flatMap list → as = bs
  | [], [], _, _ => rfl
  | [], _ :: _, h, _ => by simp at h
  | _ :: _, [], h, _ => by simp at h
  | a :: as, b :: bs, h, h' => by
      simp only [List.map_cons, List.cons.injEq] at h
      simp only [List.flatMap_cons] at h'
      obtain ⟨hhead, htail⟩ := List.append_inj h' (hlen a b h.1)
      rw [hext a b h.1 hhead, eq_of_flatMap_eq hlen hext h.2 htail]

/-- The same for elements that list one thing. -/
theorem eq_of_map_eq {one : α → β} (hext : ∀ a b, v a = v b → one a = one b → a = b)
    {as bs : List α} (h : as.map v = bs.map v) (h' : as.map one = bs.map one) : as = bs := by
  have hlists : as.flatMap (fun a => [one a]) = bs.flatMap fun a => [one a] := by
    simpa only [List.map_eq_flatMap] using h'
  exact eq_of_flatMap_eq (fun _ _ _ => rfl)
    (fun a b hv hone => hext a b hv (List.cons.inj hone).1) h hlists

end Extensional

theorem Parameter.eq_of_blank {a b : Parameter} (h : a.blank = b.blank) (h' : a.type = b.type) :
    a = b := by
  cases a
  cases b
  simp_all [Parameter.blank]

theorem Parameter.eq_of_types {source source' : Location} {as bs : List Parameter}
    (h : as.map Parameter.blank = bs.map Parameter.blank)
    (h' : Parameter.types source as = Parameter.types source' bs) : as = bs := by
  have htypes : as.map Parameter.type = bs.map Parameter.type := by
    simpa [Parameter.types, Function.comp_def] using congrArg (List.map Prod.snd) h'
  exact eq_of_map_eq (fun _ _ => Parameter.eq_of_blank) h htypes

theorem Method.length_types {a b : Method} (h : a.blank = b.blank) :
    a.types.length = b.types.length := by
  have := congrArg (fun d => d.params.length) h
  simpa [Method.types, Parameter.types, Method.blank] using this

theorem Method.eq_of_blank {a b : Method} (h : a.blank = b.blank) (h' : a.types = b.types) :
    a = b := by
  have hparams : a.params = b.params :=
    Parameter.eq_of_types (congrArg Method.params h) (List.cons.inj h').2
  have hresult : a.result = b.result := congrArg Prod.snd (List.cons.inj h').1
  cases a
  cases b
  simp_all [Method.blank]

theorem Constant.eq_of_blank {a b : Constant} (h : a.blank = b.blank)
    (h' : (a.source, a.type) = (b.source, b.type)) : a = b := by
  cases a
  cases b
  simp_all [Constant.blank]

theorem Attribute.eq_of_blank {a b : Attribute} (h : a.blank = b.blank)
    (h' : (a.source, a.type) = (b.source, b.type)) : a = b := by
  cases a
  cases b
  simp_all [Attribute.blank]

theorem Field.eq_of_blank {a b : Field} (h : a.blank = b.blank)
    (h' : (a.source, a.type) = (b.source, b.type)) : a = b := by
  cases a
  cases b
  simp_all [Field.blank]

/-- The five lists of types in which members list theirs are as long as the blank
says. -/
theorem Members.length_types {a b : Members} (h : a.blank = b.blank) :
    a.types.length = b.types.length := by
  simp only [Members.types, List.length_append, List.length_map,
    length_eq_of_map_eq (congrArg Members.constants h),
    length_eq_of_map_eq (congrArg Members.attributes h),
    length_eq_of_map_eq (congrArg Members.staticAttributes h),
    length_flatMap_eq (fun _ _ => Method.length_types) (congrArg Members.methods h),
    length_flatMap_eq (fun _ _ => Method.length_types) (congrArg Members.staticMethods h)]

theorem Members.eq_of_blank {a b : Members} (h : a.blank = b.blank) (h' : a.types = b.types) :
    a = b := by
  have hconstants := congrArg Members.constants h
  have hattributes := congrArg Members.attributes h
  have hstatic := congrArg Members.staticAttributes h
  have hmethods := congrArg Members.methods h
  have hstaticMethods := congrArg Members.staticMethods h
  simp only [Members.types, List.append_assoc] at h'
  obtain ⟨h₁, h'⟩ := List.append_inj h' (by simpa using length_eq_of_map_eq hconstants)
  obtain ⟨h₂, h'⟩ := List.append_inj h' (by simpa using length_eq_of_map_eq hattributes)
  obtain ⟨h₃, h'⟩ := List.append_inj h' (by simpa using length_eq_of_map_eq hstatic)
  obtain ⟨h₄, h₅⟩ :=
    List.append_inj h' (length_flatMap_eq (fun _ _ => Method.length_types) hmethods)
  have heq : ∀ {as bs : List Method}, as.map Method.blank = bs.map Method.blank →
      as.flatMap Method.types = bs.flatMap Method.types → as = bs :=
    eq_of_flatMap_eq (fun _ _ => Method.length_types) (fun _ _ => Method.eq_of_blank)
  cases a
  cases b
  rw [Members.mk.injEq]
  exact ⟨eq_of_map_eq (fun _ _ => Constant.eq_of_blank) hconstants h₁,
    eq_of_map_eq (fun _ _ => Attribute.eq_of_blank) hattributes h₂,
    eq_of_map_eq (fun _ _ => Attribute.eq_of_blank) hstatic h₃,
    heq hmethods h₄, heq hstaticMethods h₅⟩

/-- Entities with equal blanks and equal types are equal. -/
theorem Entity.eq_of_blank {e e' : Entity} (h : e.blank = e'.blank) (h' : e.types = e'.types) :
    e = e' := by
  cases e with
  | interface a =>
      obtain ⟨b, rfl⟩ : ∃ b, e' = .interface b := by
        cases e' <;> simp [Entity.blank] at h
        exact ⟨_, rfl⟩
      replace h : a.blank = b.blank := Entity.interface.inj h
      have hmembers : a.members.blank = b.members.blank := congrArg Interface.members h
      obtain ⟨h₁, h₂⟩ := List.append_inj h' (Members.length_types hmembers)
      have hconstructor : a.constructor = b.constructor := by
        have hblank : a.constructor.map Method.blank = b.constructor.map Method.blank :=
          congrArg Interface.constructor h
        cases ha : a.constructor with
        | none =>
            rw [ha] at hblank
            exact (Option.map_eq_none_iff.mp hblank.symm).symm
        | some x =>
            rw [ha] at hblank h₂
            obtain ⟨y, hb, hxy⟩ := Option.map_eq_some_iff.mp hblank.symm
            rw [hb] at h₂ ⊢
            rw [Method.eq_of_blank hxy.symm (by simpa using h₂)]
      have := Members.eq_of_blank hmembers h₁
      cases a
      cases b
      simp_all [Interface.blank]
  | dictionary a =>
      obtain ⟨b, rfl⟩ : ∃ b, e' = .dictionary b := by
        cases e' <;> simp [Entity.blank] at h
        exact ⟨_, rfl⟩
      replace h : a.blank = b.blank := Entity.dictionary.inj h
      have hmembers := congrArg Dictionary.members h
      have hinherited := congrArg Dictionary.inherited h
      simp only [Entity.types, List.map_append] at h'
      obtain ⟨h₁, h₂⟩ := List.append_inj h' (by simpa using length_eq_of_map_eq hmembers)
      have := eq_of_map_eq (fun _ _ => Field.eq_of_blank) hmembers h₁
      have := eq_of_map_eq (fun _ _ => Field.eq_of_blank) hinherited h₂
      cases a
      cases b
      simp_all [Dictionary.blank]
  | enumeration a =>
      cases e' <;> simp [Entity.blank] at h
      rw [h]
  | callback a =>
      obtain ⟨b, rfl⟩ : ∃ b, e' = .callback b := by
        cases e' <;> simp [Entity.blank] at h
        exact ⟨_, rfl⟩
      replace h : a.blank = b.blank := Entity.callback.inj h
      have hparams := Parameter.eq_of_types (congrArg Callback.params h) (List.cons.inj h').2
      have hresult : a.result = b.result := congrArg Prod.snd (List.cons.inj h').1
      cases a
      cases b
      simp_all [Callback.blank]

/-! ## Rebuilt entities -/

/-- An entity is rebuilt with its types related one by one, and nothing else
changed. -/
structure Entity.Rebuilt (R : TypeRef → TypeRef → Prop) (e e' : Entity) : Prop where
  blank : e'.blank = e.blank
  types : List.Forall₂ (fun x y => y.1 = x.1 ∧ R x.2 y.2) e.types e'.types

namespace Entity

theorem Rebuilt.imp {R S : TypeRef → TypeRef → Prop} {e e' : Entity} (h : e.Rebuilt R e')
    (hRS : ∀ t u, R t u → S t u) : e.Rebuilt S e' :=
  ⟨h.blank, h.types.imp fun _ _ hxy => ⟨hxy.1, hRS _ _ hxy.2⟩⟩

/-- Every type of a rebuilt entity comes from one of the entity. -/
theorem Rebuilt.source {R : TypeRef → TypeRef → Prop} {e e' : Entity} (h : e.Rebuilt R e')
    {y : Location × TypeRef} (hy : y ∈ e'.types) : ∃ x ∈ e.types, y.1 = x.1 ∧ R x.2 y.2 :=
  forall₂_right h.types y hy

theorem types_mapTypes (g : TypeRef → TypeRef) (e : Entity) :
    (e.mapTypes g).types = e.types.map fun x => (x.1, g x.2) := by
  have h := Entity.types_mapTypesM (m := Id) (fun _ t => pure (g t)) e
  have hwalk : walkType (m := Id) (fun _ t => pure (g t)) = fun x => pure (x.1, g x.2) := by
    funext x
    simp [walkType]
  rw [hwalk, List.mapM_pure] at h
  exact h

theorem blank_mapTypes (g : TypeRef → TypeRef) (e : Entity) : (e.mapTypes g).blank = e.blank :=
  (Entity.blank_mapTypesM (m := Id) (fun _ t => pure (g t)) e).ofId

/-- If the relation is a function, the rebuilt entity is known. -/
theorem Rebuilt.eq_mapTypes {g : TypeRef → TypeRef} {e e' : Entity}
    (h : e.Rebuilt (fun t u => u = g t) e') : e' = e.mapTypes g := by
  refine Entity.eq_of_blank (h.blank.trans (blank_mapTypes g e).symm) ?_
  rw [types_mapTypes, ← List.forall₂_eq_eq_eq, List.forall₂_map_right_iff]
  exact h.types.flip.imp fun y x hxy => Prod.ext hxy.1 hxy.2

theorem Rebuilt.eq {e e' : Entity} (h : e.Rebuilt (fun t u => u = t) e') : e' = e := by
  refine Entity.eq_of_blank h.blank ?_
  rw [← List.forall₂_eq_eq_eq]
  exact h.types.flip.imp fun y x hxy => Prod.ext hxy.1 hxy.2

end Entity

/-! ## Walks in a state monad -/

/-- What has to be known of the step of a walk over types.  `Inv` holds of the
state throughout, `Leads` relates a state to those after it, `Pre` is asked of
the types, and `Post` relates a type to what it becomes. -/
structure WalkRule {σ : Type} (f : Location → TypeRef → StateM σ TypeRef) (Inv : σ → Prop)
    (Leads : σ → σ → Prop) (Pre : TypeRef → Prop) (Post : TypeRef → TypeRef → σ → Prop) :
    Prop where
  refl : ∀ s, Inv s → Leads s s
  trans : ∀ {s₁ s₂ s₃}, Leads s₁ s₂ → Leads s₂ s₃ → Leads s₁ s₃
  post_leads : ∀ {t u s s'}, Leads s s' → Post t u s → Post t u s'
  step : ∀ at_ t s, Inv s → Pre t → Inv ((f at_ t).run s).2 ∧ Leads s ((f at_ t).run s).2 ∧
    Post t ((f at_ t).run s).1 ((f at_ t).run s).2

namespace WalkRule

variable {σ : Type} {f : Location → TypeRef → StateM σ TypeRef} {Inv : σ → Prop}
  {Leads : σ → σ → Prop} {Pre : TypeRef → Prop} {Post : TypeRef → TypeRef → σ → Prop}

/-- What a walk over several types does. -/
theorem runList (rule : WalkRule f Inv Leads Pre Post) (xs : List (Location × TypeRef))
    (hpre : ∀ x ∈ xs, Pre x.2) (s : σ) (hs : Inv s) :
    Inv ((xs.mapM (walkType f)).run s).2 ∧ Leads s ((xs.mapM (walkType f)).run s).2 ∧
      List.Forall₂ (fun x y => y.1 = x.1 ∧ Post x.2 y.2 ((xs.mapM (walkType f)).run s).2) xs
        ((xs.mapM (walkType f)).run s).1 := by
  induction xs generalizing s with
  | nil => exact ⟨hs, rule.refl s hs, .nil⟩
  | cons x xs ih =>
    obtain ⟨hinv, hleads, hx⟩ := rule.step x.1 x.2 s hs (hpre x List.mem_cons_self)
    obtain ⟨hinv', hleads', hxs⟩ := ih (fun y hy => hpre y (List.mem_cons_of_mem x hy)) _ hinv
    rw [List.mapM_cons]
    exact ⟨hinv', rule.trans hleads hleads', .cons ⟨rfl, rule.post_leads hleads' hx⟩ hxs⟩

/-- What a walk over an entity does. -/
theorem run (rule : WalkRule f Inv Leads Pre Post) {e : Entity} (hpre : ∀ x ∈ e.types, Pre x.2)
    {s : σ} (hs : Inv s) :
    Inv ((e.mapTypesM f).run s).2 ∧ Leads s ((e.mapTypesM f).run s).2 ∧
      e.Rebuilt (Post · · ((e.mapTypesM f).run s).2) ((e.mapTypesM f).run s).1 := by
  have hlist := rule.runList e.types hpre s hs
  rw [← Entity.types_mapTypesM] at hlist
  exact ⟨hlist.1, hlist.2.1, (Entity.blank_mapTypesM f e).run s, hlist.2.2⟩

end WalkRule

/-- A walk that leaves every type of an entity alone. -/
theorem Entity.run_mapTypesM_of_fixed {σ : Type} {f : Location → TypeRef → StateM σ TypeRef}
    {e : Entity} (h : ∀ x ∈ e.types, ∀ at_ s, (f at_ x.2).run s = (x.2, s)) (s : σ) :
    (e.mapTypesM f).run s = (e, s) := by
  have rule : WalkRule f (fun _ => True) (fun s s' => s' = s)
      (fun t => ∀ at_ s, (f at_ t).run s = (t, s)) (fun t u _ => u = t) :=
    { refl := fun _ _ => rfl
      trans := fun h h' => h'.trans h
      post_leads := fun _ h => h
      step := fun at_ t s _ ht => by
        rw [ht]
        exact ⟨trivial, rfl, rfl⟩ }
  obtain ⟨-, hstate, hrebuilt⟩ := rule.run h (s := s) trivial
  exact Prod.ext hrebuilt.eq hstate

end IdlModel
