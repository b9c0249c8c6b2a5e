import IdlModel.Proofs.Parts
import IdlModel.Proofs.EntityTypes
import IdlModel.Proofs.Runs
import IdlModel.Proofs.TableLaws

/-!
# Declared tables

What is known of the table when the documents are declared and their fragments
are merged.

* *Index.* A name stands for an entity, a mixin or a typedef exactly if this has
  the name.  So no two of them have the same name.
* *Types.* Every type is as it was written.  It has no handle and no
  placeholder, and a name in it is none of a builtin type.  A constructor may
  also return the bare name of its interface, whatever this name is.
* *Parents.* Every parent is a name.
* *Marks.* No entity is in use, and none comes from the template of promises.

The same is asked of the fragments that wait, for their members end in the
table.
-/

namespace IdlModel

open Syntax

/-! ## Written types -/

namespace TypeRef

/-- A name that is none of a builtin type. -/
def IsFreeName (name : String) : Prop := ofName name = .unlinked name

/-- A part that can be written. -/
def IsWrittenPart : TypeRef → Prop
  | .entity _ _ => False
  | .placeholder _ => False
  | .unlinked name => IsFreeName name
  | _ => True

/-- A type as it was written, or a bare name. -/
def IsWritten (t : TypeRef) : Prop := t.Everywhere IsWrittenPart ∨ ∃ name, t = .unlinked name

theorem ofName_written (name : String) : (ofName name).Everywhere IsWrittenPart := by
  have hleaf : (ofName name).parts = [] := by
    unfold ofName
    split
    · rfl
    · split
      · rfl
      · split <;> rfl
  refine everywhere_iff.mpr ⟨?_, by simp [hleaf]⟩
  by_cases h : IsFreeName name
  · rw [h]
    exact h
  · unfold IsFreeName at h
    unfold ofName at h ⊢
    split
    · trivial
    · split
      · trivial
      · split
        · trivial
        · simp_all

mutual

theorem ofExpr_written : ∀ x : TypeExpr, (ofExpr x).Everywhere IsWrittenPart
  | .named name => ofName_written name
  | .sequence element => everywhere_iff.mpr ⟨trivial, by
      intro u hu
      rw [List.mem_singleton.mp hu]
      exact ofExpr_written element⟩
  | .record key value => everywhere_iff.mpr ⟨trivial, by
      intro u hu
      simp only [ofExpr, parts, List.mem_cons, List.not_mem_nil, or_false] at hu
      rcases hu with rfl | rfl
      · exact ofExpr_written key
      · exact ofExpr_written value⟩
  | .generic _ args => everywhere_iff.mpr ⟨trivial, ofExprs_written args⟩
  | .union members => everywhere_iff.mpr ⟨trivial, ofExprs_written members⟩
  | .nullable inner => everywhere_iff.mpr ⟨trivial, by
      intro u hu
      rw [List.mem_singleton.mp hu]
      exact ofExpr_written inner⟩

theorem ofExprs_written : ∀ xs : List TypeExpr, ∀ t ∈ ofExprs xs, t.Everywhere IsWrittenPart
  | [] => by
      intro t ht
      cases ht
  | x :: xs => by
      intro t ht
      rcases List.mem_cons.mp ht with rfl | ht
      · exact ofExpr_written x
      · exact ofExprs_written xs t ht

end

theorem IsWritten.ofExpr (x : TypeExpr) : (ofExpr x).IsWritten := .inl (ofExpr_written x)

end TypeRef

/-- All types of a list are written. -/
def TypesWritten (xs : List (Location × TypeRef)) : Prop := ∀ x ∈ xs, x.2.IsWritten

namespace TypesWritten

theorem nil : TypesWritten [] := fun _ h => nomatch h

theorem append {xs ys : List (Location × TypeRef)} :
    TypesWritten (xs ++ ys) ↔ TypesWritten xs ∧ TypesWritten ys :=
  List.forall_mem_append

theorem parameters (source : Location) (args : List Argument) :
    TypesWritten (Parameter.types source (parametersOf args)) := by
  intro x hx
  simp only [Parameter.types, parametersOf, List.map_map, List.mem_map] at hx
  obtain ⟨a, _, rfl⟩ := hx
  exact .ofExpr a.type

theorem constructor (owner : String) (args : List Argument) (source : Location) :
    TypesWritten (constructorOf owner args source).types :=
  List.forall_mem_cons.mpr ⟨.inr ⟨owner, rfl⟩, parameters source args⟩

end TypesWritten

/-! ## Members -/

namespace Members

/-- The types of two lists of members. -/
theorem mem_types_append {a b : Members} {x : Location × TypeRef} :
    x ∈ (a ++ b).types ↔ x ∈ a.types ∨ x ∈ b.types := by
  show x ∈ (a.append b).types ↔ _
  simp only [types, append, List.map_append, List.flatMap_append, List.mem_append]
  tauto

theorem typesWritten_append {a b : Members} (ha : TypesWritten a.types)
    (hb : TypesWritten b.types) : TypesWritten (a ++ b).types :=
  fun x hx => (mem_types_append.mp hx).elim (ha x) (hb x)

end Members

namespace Body

/-- The members and the constructor of a body are written. -/
structure Written (b : Body) : Prop where
  members : TypesWritten b.members.types
  constructor : TypesWritten (b.constructor.toList.flatMap Method.types)

theorem Written.extend {b : Body} (h : b.Written) {m : Members} (hm : TypesWritten m.types) :
    (b.extend m).Written :=
  ⟨Members.typesWritten_append h.members hm, h.constructor⟩

theorem Written.report {b : Body} (h : b.Written) (reports : List LocatedIssue) :
    ({ b with reports } : Body).Written :=
  ⟨h.members, h.constructor⟩

theorem Written.add {b : Body} (h : b.Written) (file owner : String) (m : Member) :
    (b.add file owner m).Written := by
  cases m with
  | constant d =>
      refine h.extend ?_
      simpa [Members.types, TypesWritten] using TypeRef.IsWritten.ofExpr d.type
  | «attribute» d =>
      have hd := TypeRef.IsWritten.ofExpr d.type
      simp only [Body.add]
      split
      · exact (h.report _).extend (by simpa [Members.types, TypesWritten] using hd)
      · exact (h.report _).extend (by simpa [Members.types, TypesWritten] using hd)
  | operation d =>
      have hd (source : Location) :
          TypesWritten ((source, .ofExpr d.returnType) ::
            Parameter.types source (parametersOf d.args)) :=
        List.forall_mem_cons.mpr ⟨.ofExpr d.returnType, TypesWritten.parameters source d.args⟩
      simp only [Body.add]
      split
      next => exact (h.report _).report _
      next =>
        split
        · exact (h.report _).extend (by simpa [Members.types, Method.types] using hd _)
        · exact (h.report _).extend (by simpa [Members.types, Method.types] using hd _)
  | constructor d =>
      simp only [Body.add]
      split
      next => exact h.report _
      next => exact ⟨h.members, by simpa using TypesWritten.constructor owner d.args _⟩
  | iterable _ => exact h.report _
  | maplike _ => exact h.report _
  | setlike _ => exact h.report _
  | stringifier _ => exact h.report _

theorem written_ofMembers (file owner : String) (members : List Member) :
    (ofMembers file owner members).Written := by
  suffices h : ∀ b : Body, b.Written → (members.foldl (add file owner) b).Written from
    h {} ⟨.nil, .nil⟩
  induction members with
  | nil => exact fun _ hb => hb
  | cons m members ih => exact fun b hb => ih _ (hb.add file owner m)

end Body

/-! ## Declared entities -/

/-- What is known of an entity before it is linked. -/
structure Entity.IsDeclared (e : Entity) : Prop where
  types : TypesWritten e.types
  parent : ∀ p, e.parent? = some p → ∃ name, p = .unlinked name
  template : e.identity.template = none
  name : e.identity.name = displayName e.key
  events : e.events = []
  inherited : e.setInherited [] = e

namespace Entity

variable {e : Entity}

theorem isDeclared_interface {d : Interface} {idl package : String} {at_ : Location}
    (hidentity : d.identity = .ofIdl idl package at_) (hmembers : TypesWritten d.members.types)
    (hconstructor : TypesWritten (d.constructor.toList.flatMap Method.types))
    (hparent : ∀ p, d.parent = some p → ∃ name, p = .unlinked name) (hevents : d.events = []) :
    (Entity.interface d).IsDeclared where
  types := TypesWritten.append.mpr ⟨hmembers, hconstructor⟩
  parent := hparent
  template := congrArg Identity.template hidentity
  name := by
    show d.identity.name = displayName d.identity.idl
    rw [hidentity]
    rfl
  events := hevents
  inherited := rfl

theorem key_addFields (fields : List Field) (e : Entity) : (e.addFields fields).key = e.key := by
  cases e <;> rfl

theorem key_addFragment (d : Interface) (e : Entity) : (e.addFragment d).key = e.key := by
  cases e <;> rfl

theorem key_addMembers (m : Members) (e : Entity) : (e.addMembers m).key = e.key := by
  cases e <;> rfl

theorem IsDeclared.addFields (h : e.IsDeclared) {fields : List Field}
    (hfields : TypesWritten (fields.map fun d => (d.source, d.type))) :
    (e.addFields fields).IsDeclared := by
  cases e with
  | dictionary d =>
      refine ⟨?_, h.parent, h.template, h.name, h.events, ?_⟩
      · have htypes := h.types
        simp only [Entity.addFields, Entity.types, List.map_append, TypesWritten.append]
          at htypes ⊢
        exact ⟨⟨htypes.1, hfields⟩, htypes.2⟩
      · have hinherited := h.inherited
        cases d
        simp only [setInherited, Entity.addFields, dictionary.injEq, Dictionary.mk.injEq] at *
        tauto
  | _ => exact h

theorem IsDeclared.addMembers (h : e.IsDeclared) {m : Members} (hm : TypesWritten m.types) :
    (e.addMembers m).IsDeclared := by
  cases e with
  | interface d =>
      obtain ⟨hmembers, hconstructor⟩ := TypesWritten.append.mp h.types
      exact ⟨TypesWritten.append.mpr ⟨Members.typesWritten_append hmembers hm, hconstructor⟩,
        h.parent, h.template, h.name, h.events, rfl⟩
  | _ => exact h

theorem IsDeclared.addFragment (h : e.IsDeclared) {d : Interface}
    (hd : (Entity.interface d).IsDeclared) : (e.addFragment d).IsDeclared := by
  cases e with
  | interface d' =>
      obtain ⟨hmembers, hconstructor⟩ := TypesWritten.append.mp h.types
      obtain ⟨hmembers', hconstructor'⟩ := TypesWritten.append.mp hd.types
      refine ⟨TypesWritten.append.mpr ⟨Members.typesWritten_append hmembers hmembers', ?_⟩,
        h.parent, h.template, h.name, h.events, rfl⟩
      cases hc : d'.constructor with
      | none => simpa [hc] using hconstructor'
      | some method => simpa [hc] using hconstructor
  | _ => exact h

end Entity

/-! ## Declared tables -/

/-- What is known of a table before it is linked. -/
structure SymbolTable.Declared (t : SymbolTable) : Prop where
  types : ∀ name id, t.lookup? name = some (.type id) ↔ ∃ e, t.entity? id = some e ∧ e.key = name
  typedefs : ∀ name i,
    t.lookup? name = some (.typedef i) ↔ ∃ d, t.typedefs[i]? = some d ∧ d.idl = name
  mixins : ∀ name i,
    t.lookup? name = some (.mixin i) ↔ ∃ d, t.mixins[i]? = some d ∧ d.identity.idl = name
  entities : ∀ id e, t.entity? id = some e → e.IsDeclared
  bodies : ∀ (i : Nat) d, t.typedefs[i]? = some d → d.type.Everywhere TypeRef.IsWrittenPart
  mixed : ∀ (i : Nat) d, t.mixins[i]? = some d → TypesWritten d.members.types
  unused : ∀ id, t.isInUse id = false
  promises : t.promises = .empty

namespace SymbolTable

variable {t t' : SymbolTable}

theorem Declared.empty : Declared {} where
  types name id := by simp [lookup?, Register.empty, Register.find?, Register.findIn, entity?]
  typedefs name i := by simp [lookup?, Register.empty, Register.find?, Register.findIn]
  mixins name i := by simp [lookup?, Register.empty, Register.find?, Register.findIn]
  entities id e h := by simp [entity?] at h
  bodies i d h := by simp at h
  mixed i d h := by simp at h
  unused id := rfl
  promises := rfl

/-- A name without a place stands for nothing. -/
theorem Declared.lookup?_eq_none (h : t.Declared) {name : String}
    (hname : t.declaredAt? name = none) : t.lookup? name = none := by
  cases hsymbol : t.lookup? name with
  | none => rfl
  | some symbol =>
      rw [declaredAt?, hsymbol, Option.bind_some] at hname
      cases symbol with
      | type id =>
          obtain ⟨e, he, _⟩ := (h.types name id).mp hsymbol
          simp [sourceOf?, he] at hname
      | mixin i =>
          obtain ⟨d, hd, _⟩ := (h.mixins name i).mp hsymbol
          simp [sourceOf?, hd] at hname
      | typedef i =>
          obtain ⟨d, hd, _⟩ := (h.typedefs name i).mp hsymbol
          simp [sourceOf?, hd] at hname

/-- No two entities have the same name. -/
theorem Declared.id_unique (h : t.Declared) {x y : EntityId} {e e' : Entity}
    (hx : t.entity? x = some e) (hy : t.entity? y = some e') (hkey : e.key = e'.key) : x = y := by
  have hx' := (h.types e.key x).mpr ⟨e, hx, rfl⟩
  have hy' := (h.types e.key y).mpr ⟨e', hy, hkey.symm⟩
  simpa [hx'] using hy'

theorem Declared.modify (h : t.Declared) (id : EntityId) {f : Entity → Entity}
    (hkey : ∀ e, (f e).key = e.key) (hf : ∀ e, e.IsDeclared → (f e).IsDeclared) :
    (t.modify id f).Declared where
  types name x := by
    show t.lookup? name = some (.type x) ↔ _
    rw [h.types, entity?_modify]
    split
    next => simp [hkey]
    next => rfl
  typedefs := h.typedefs
  mixins := h.mixins
  entities x e he := by
    rw [entity?_modify] at he
    split at he
    next =>
      obtain ⟨e', he', rfl⟩ := Option.map_eq_some_iff.mp he
      exact hf e' (h.entities x e' he')
    next => exact h.entities x e he
  bodies := h.bodies
  mixed := h.mixed
  unused x := by rw [isInUse_modify, h.unused]
  promises := h.promises

/-- One more name stands for something else. -/
theorem find?_put_iff {key : String} (hfree : t.lookup? key = none) {symbol other : Symbol}
    (hne : symbol ≠ other) (name : String) :
    (t.names.put key symbol).find? name = some other ↔ t.lookup? name = some other := by
  rw [Register.find?_put]
  split
  next hname =>
    rw [hname, hfree]
    simp [hne]
  next => rfl

/-- One more name stands for one more declaration in a list. -/
theorem find?_put_size_iff {α : Type} {xs : Array α} {f : α → String} {place : Nat → Symbol}
    (hplace : ∀ i j, place i = place j → i = j)
    (h : ∀ name i, t.lookup? name = some (place i) ↔ ∃ d, xs[i]? = some d ∧ f d = name) {d : α}
    (hfree : t.lookup? (f d) = none) (name : String) (i : Nat) :
    (t.names.put (f d) (place xs.size)).find? name = some (place i) ↔
      ∃ d', (xs.push d)[i]? = some d' ∧ f d' = name := by
  rw [Array.getElem?_push]
  by_cases hi : i = xs.size
  · subst hi
    have hold : t.lookup? name ≠ some (place xs.size) := by
      intro hname
      obtain ⟨d', hd', _⟩ := (h name _).mp hname
      simp at hd'
    rw [Register.find?_put]
    by_cases hname : name = f d
    · simp [hname]
    · rw [if_neg hname]
      simp [hold, Ne.symm hname, show t.names.find? name = t.lookup? name from rfl]
  · rw [if_neg hi, ← h]
    exact find?_put_iff hfree (fun heq => hi (hplace _ _ heq).symm) name

theorem Declared.insert (h : t.Declared) {e : Entity} (he : e.IsDeclared)
    (hinsert : t.insert e = .ok t') : t'.Declared := by
  unfold SymbolTable.insert at hinsert
  split at hinsert
  next => cases hinsert
  next hplace =>
    cases hinsert
    have hfree := h.lookup?_eq_none hplace
    refine
      { types := fun name x => ?_
        typedefs := fun name i => (find?_put_iff hfree (by simp) name).trans (h.typedefs name i)
        mixins := fun name i => (find?_put_iff hfree (by simp) name).trans (h.mixins name i)
        entities := fun x e' he' => ?_
        bodies := h.bodies
        mixed := h.mixed
        unused := fun x => ?_
        promises := h.promises }
    · show (t.names.put e.key (.type t.nextId)).find? name = some (.type x) ↔
        ∃ e', (t.push e).entity? x = some e' ∧ e'.key = name
      rw [Register.find?_put, entity?_push]
      by_cases hx : x = t.nextId
      · have hold : t.lookup? name ≠ some (.type t.nextId) := by
          intro hname
          obtain ⟨e', he', _⟩ := (h.types _ _).mp hname
          exact ne_nextId he' rfl
        replace hold : ¬ t.names.find? name = some (.type t.nextId) := hold
        by_cases hname : name = e.key
        · simp [hx, hname]
        · simp [hx, hname, hold, Ne.symm hname]
      · rw [if_neg hx, ← h.types]
        by_cases hname : name = e.key
        · simp [hname, hfree, Ne.symm hx]
        · rw [if_neg hname]
          rfl
    · replace he' : (t.push e).entity? x = some e' := he'
      rw [entity?_push] at he'
      split at he'
      next =>
        cases he'
        exact he
      next => exact h.entities x e' he'
    · show (t.push e).isInUse x = false
      rw [isInUse_push, h.unused]

theorem Declared.insertTypedef (h : t.Declared) {d : Typedef}
    (hd : d.type.Everywhere TypeRef.IsWrittenPart) (hinsert : t.insertTypedef d = .ok t') :
    t'.Declared := by
  unfold SymbolTable.insertTypedef at hinsert
  split at hinsert
  next => cases hinsert
  next hplace =>
    cases hinsert
    have hfree := h.lookup?_eq_none hplace
    refine
      { types := fun name x => (find?_put_iff hfree (by simp) name).trans (h.types name x)
        typedefs := find?_put_size_iff (fun _ _ => Symbol.typedef.inj) h.typedefs hfree
        mixins := fun name i => (find?_put_iff hfree (by simp) name).trans (h.mixins name i)
        entities := h.entities
        bodies := fun i d' hd' => ?_
        mixed := h.mixed
        unused := h.unused
        promises := h.promises }
    replace hd' : (t.typedefs.push d)[i]? = some d' := hd'
    rw [Array.getElem?_push] at hd'
    split at hd'
    next =>
      cases hd'
      exact hd
    next => exact h.bodies i d' hd'

theorem Declared.insertMixin (h : t.Declared) {d : Mixin} (hd : TypesWritten d.members.types)
    (hinsert : t.insertMixin d = .ok t') : t'.Declared := by
  unfold SymbolTable.insertMixin at hinsert
  split at hinsert
  next => cases hinsert
  next hplace =>
    cases hinsert
    have hfree := h.lookup?_eq_none hplace
    refine
      { types := fun name x => (find?_put_iff hfree (by simp) name).trans (h.types name x)
        typedefs := fun name i => (find?_put_iff hfree (by simp) name).trans (h.typedefs name i)
        mixins := find?_put_size_iff (f := fun d : Mixin => d.identity.idl)
          (fun _ _ => Symbol.mixin.inj) h.mixins hfree
        entities := h.entities
        bodies := h.bodies
        mixed := fun i d' hd' => ?_
        unused := h.unused
        promises := h.promises }
    replace hd' : (t.mixins.push d)[i]? = some d' := hd'
    rw [Array.getElem?_push] at hd'
    split at hd'
    next =>
      cases hd'
      exact hd
    next => exact h.mixed i d' hd'

theorem Declared.extendMixin (h : t.Declared) (index : Nat) {m : Members}
    (hm : TypesWritten m.types) : (t.extendMixin index m).Declared where
  types := h.types
  typedefs := h.typedefs
  mixins name i := by
    show t.lookup? name = some (.mixin i) ↔ _
    rw [h.mixins, SymbolTable.extendMixin, Array.getElem?_modify]
    split <;> simp
  entities := h.entities
  bodies := h.bodies
  mixed i d hd := by
    simp only [SymbolTable.extendMixin, Array.getElem?_modify] at hd
    split at hd
    next =>
      obtain ⟨d', hd', rfl⟩ := Option.map_eq_some_iff.mp hd
      exact Members.typesWritten_append (h.mixed i d' hd') hm
    next => exact h.mixed i d hd
  unused := h.unused
  promises := h.promises

end SymbolTable

/-! ## Runs of the first two stages -/

/-- What is known of the fragments that wait. -/
structure Fragments.Declared (f : Fragments) : Prop where
  interfaces : ∀ d ∈ f.interfaces, (Entity.interface d).IsDeclared
  dictionaries : ∀ d ∈ f.dictionaries, (Entity.dictionary d).IsDeclared
  mixins : ∀ d ∈ f.mixins, TypesWritten d.members.types

theorem Fragments.Declared.empty : Fragments.Declared {} where
  interfaces _ hd := by cases hd
  dictionaries _ hd := by cases hd
  mixins _ hd := by cases hd

/-- What is known of a compilation before linking. -/
structure Compilation.Declaring (c : Compilation) : Prop where
  table : c.table.Declared
  fragments : c.fragments.Declared

namespace Compilation

variable {c : Compilation}

theorem Declaring.fresh (settings : Settings) : Declaring { settings } where
  table := .empty
  fragments := .empty

/-- Only the table and the fragments matter. -/
theorem Declaring.of_eq {c' : Compilation} (h : c.Declaring) (htable : c'.table = c.table)
    (hfragments : c'.fragments = c.fragments) : c'.Declaring :=
  ⟨htable ▸ h.table, hfragments ▸ h.fragments⟩

theorem Declaring.report (h : c.Declaring) (issue : Issue) (at_ : Location) :
    (c.report issue at_).Declaring :=
  h.of_eq rfl rfl

theorem Declaring.reportAll (h : c.Declaring) (issues : List LocatedIssue) :
    (c.reportAll issues).Declaring := by
  unfold Compilation.reportAll
  induction issues generalizing c with
  | nil => exact h
  | cons issue issues ih => exact ih (h.report issue.1 issue.2)

theorem Declaring.declared (h : c.Declaring) (name : String) (at_ : Location)
    {attempt : Except Location SymbolTable} (hattempt : ∀ t, attempt = .ok t → t.Declared) :
    (c.declared name at_ attempt).Declaring := by
  unfold Compilation.declared
  split
  next table => exact ⟨hattempt table rfl, h.fragments⟩
  next => exact h.report _ _

theorem Declaring.declareEntity (h : c.Declaring) {e : Entity} (he : e.IsDeclared) :
    (c.declareEntity e).Declaring :=
  h.declared e.key e.source fun _ => h.table.insert he

theorem Declaring.declareEnumeration (h : c.Declaring) (file : String) (d : EnumerationDecl) :
    (c.declareEnumeration file d).Declaring := by
  refine ((h.reportAll _).reportAll _).declareEntity ⟨.nil, nofun, rfl, rfl, rfl, rfl⟩

/-- A parent is a name. -/
theorem parent_unlinked {inherits : Option String} :
    ∀ p, inherits.map TypeRef.unlinked = some p → ∃ name, p = .unlinked name := by
  intro p hp
  obtain ⟨name, _, rfl⟩ := Option.map_eq_some_iff.mp hp
  exact ⟨name, rfl⟩

theorem interfaceOf_declared (file package : String) (d : InterfaceDecl) :
    (Entity.interface (interfaceOf file package d).1).IsDeclared := by
  have hbody := Body.written_ofMembers file d.name d.members
  refine Entity.isDeclared_interface rfl hbody.members ?_ parent_unlinked rfl
  show TypesWritten (((Body.ofMembers file d.name d.members).constructor <|>
    (annotatedConstructor? d.annotations).map (constructorOf d.name · ⟨file, d.line.toNat⟩)
      ).toList.flatMap Method.types)
  cases hc : (Body.ofMembers file d.name d.members).constructor with
  | some method => simpa [hc] using hbody.constructor
  | none =>
      cases annotatedConstructor? d.annotations with
      | none => exact .nil
      | some args => simpa using TypesWritten.constructor d.name args _

theorem Declaring.declareInterface (h : c.Declaring) (file : String) (d : InterfaceDecl) :
    (c.declareInterface file d).Declaring := by
  have hdecl := interfaceOf_declared file (c.packageOf file) d
  unfold Compilation.declareInterface
  dsimp only
  have hreported := h.reportAll (interfaceOf file (c.packageOf file) d).2
  split
  next => exact hreported.report _ _
  next =>
    split
    · refine ⟨hreported.table, ⟨?_, hreported.fragments.dictionaries, hreported.fragments.mixins⟩⟩
      exact List.forall_mem_append.mpr
        ⟨hreported.fragments.interfaces, List.forall_mem_singleton.mpr hdecl⟩
    · exact hreported.declareEntity hdecl

theorem Declaring.declareMixin (h : c.Declaring) (file : String) (d : MixinDecl) :
    (c.declareMixin file d).Declaring := by
  have hnoted : ∀ (b : Body) (issue : Issue) (at_ : Location), TypesWritten b.members.types →
      TypesWritten (if b.constructor.isSome then b.note issue at_ else b).members.types := by
    intro b issue at_ hb
    split
    · exact hb
    · exact hb
  have hbody := hnoted _ (Body.unsupported "constructor" d.name) ⟨file, d.line.toNat⟩
    (Body.written_ofMembers file d.name d.members).members
  unfold Compilation.declareMixin
  dsimp only
  split
  · refine ⟨(h.reportAll _).table, ⟨(h.reportAll _).fragments.interfaces,
      (h.reportAll _).fragments.dictionaries, ?_⟩⟩
    exact List.forall_mem_append.mpr
      ⟨(h.reportAll _).fragments.mixins, List.forall_mem_singleton.mpr hbody⟩
  · exact (h.reportAll _).declared _ _ fun _ => (h.reportAll _).table.insertMixin hbody

theorem Declaring.declareDictionary (h : c.Declaring) (file : String) (d : DictionaryDecl) :
    (c.declareDictionary file d).Declaring := by
  have hreported := h.reportAll (annotationReports ⟨file, d.line.toNat⟩ d.annotations)
  have hdecl : (Entity.dictionary
      { identity := .ofIdl d.name
          ((c.reportAll (annotationReports ⟨file, d.line.toNat⟩ d.annotations)).packageOf file)
          ⟨file, d.line.toNat⟩
        members := d.members.map (fieldOf file)
        parent := d.inherits.map .unlinked }).IsDeclared := by
    refine ⟨?_, parent_unlinked, rfl, rfl, rfl, rfl⟩
    intro x hx
    simp only [Entity.types, List.append_nil, List.map_map, List.mem_map] at hx
    obtain ⟨field, _, rfl⟩ := hx
    exact .ofExpr field.type
  unfold Compilation.declareDictionary
  dsimp only
  split
  · refine ⟨hreported.table, ⟨hreported.fragments.interfaces, ?_, hreported.fragments.mixins⟩⟩
    exact List.forall_mem_append.mpr
      ⟨hreported.fragments.dictionaries, List.forall_mem_singleton.mpr hdecl⟩
  · exact hreported.declareEntity hdecl

theorem Declaring.declareCallback (h : c.Declaring) (file : String) (d : CallbackDecl) :
    (c.declareCallback file d).Declaring := by
  refine (h.reportAll _).declareEntity ⟨?_, nofun, rfl, rfl, rfl, rfl⟩
  exact List.forall_mem_cons.mpr ⟨.ofExpr d.returnType, TypesWritten.parameters _ d.args⟩

theorem Declaring.declareTypedef (h : c.Declaring) (file : String) (d : TypedefDecl) :
    (c.declareTypedef file d).Declaring :=
  h.declared _ _ fun _ => h.table.insertTypedef (TypeRef.ofExpr_written d.type)

end Compilation

open Compilation

theorem keeps_declareDefinition (file : String) (d : Definition) :
    Keeps Declaring (declareDefinition file d) := by
  cases d with
  | enumeration d =>
      exact (Keeps.update fun _ h => h.declareEnumeration file d).bind fun _ => keeps_checkLimit
  | interface d =>
      exact (Keeps.update fun _ h => h.declareInterface file d).bind fun _ => keeps_checkLimit
  | mixin d =>
      exact (Keeps.update fun _ h => h.declareMixin file d).bind fun _ => keeps_checkLimit
  | dictionary d =>
      exact (Keeps.update fun _ h => h.declareDictionary file d).bind fun _ => keeps_checkLimit
  | includes d =>
      exact Keeps.update fun _ h =>
        ⟨h.table, ⟨h.fragments.interfaces, h.fragments.dictionaries, h.fragments.mixins⟩⟩
  | callback d =>
      exact (Keeps.update fun _ h => h.declareCallback file d).bind fun _ => keeps_checkLimit
  | typedef d =>
      exact (Keeps.update fun _ h => h.declareTypedef file d).bind fun _ => keeps_checkLimit
  | implementation d => exact (Keeps.update fun _ h => h.report _ _).bind fun _ => Keeps.throw _

theorem keeps_declareDocuments (documents : List Document) :
    Keeps Declaring (documents.forM declareDocument) :=
  Keeps.forM fun d _ => Keeps.forM fun definition _ => keeps_declareDefinition d.name definition

/-- A change of the table that keeps what is known of it. -/
theorem keeps_mergeFound {α : Type} {found : Except Issue α} {source : Location}
    {change : α → SymbolTable → SymbolTable}
    (h : ∀ x, found = .ok x → ∀ t : SymbolTable, t.Declared → (change x t).Declared) :
    Keeps Declaring (mergeFound found source change) := by
  unfold mergeFound
  split
  next x => exact Keeps.update fun c hc => ⟨h x rfl c.table hc.table, hc.fragments⟩
  next => exact (Keeps.update fun _ hc => hc.report _ _).bind fun _ => keeps_checkLimit

theorem keeps_mergeDictionary {d : Dictionary} (hd : (Entity.dictionary d).IsDeclared) :
    Keeps Declaring (mergeDictionary d) := by
  refine Keeps.get_bind fun c hc => keeps_mergeFound (fun id _ t ht => ?_) c hc
  refine ht.modify id (Entity.key_addFields d.members) fun e he => he.addFields ?_
  have htypes := hd.types
  simp only [Entity.types, List.map_append, TypesWritten.append] at htypes
  exact htypes.1

theorem keeps_mergeInterface {d : Interface} (hd : (Entity.interface d).IsDeclared) :
    Keeps Declaring (mergeInterface d) := by
  refine Keeps.get_bind fun c hc => keeps_mergeFound (fun id _ t ht => ?_) c hc
  exact ht.modify id (Entity.key_addFragment d) fun e he => he.addFragment hd

theorem keeps_mergeMixin {d : Mixin} (hd : TypesWritten d.members.types) :
    Keeps Declaring (mergeMixin d) := by
  refine Keeps.get_bind fun c hc => Keeps.bind ?_ (fun _ => keeps_checkLimit) c hc
  exact keeps_mergeFound fun i _ t ht => ht.extendMixin i hd

theorem keeps_mergeInclusion (d : Inclusion) : Keeps Declaring (mergeInclusion d) := by
  refine Keeps.get_bind fun c hc => keeps_mergeFound (fun x hx t ht => ?_) c hc
  refine ht.modify x.1 (Entity.key_addMembers x.2.members) fun e he => he.addMembers ?_
  unfold SymbolTable.inclusionOf at hx
  split at hx
  next => cases hx
  next =>
    split at hx
    next =>
      split at hx
      next found hfound =>
        cases hx
        exact hc.table.mixed _ found hfound
      next => cases hx
    next => cases hx

theorem keeps_mergeFragments : Keeps Declaring mergeFragments := by
  refine Keeps.get_bind fun c hc => ?_
  have hclear : Keeps Declaring (modify ({ · with fragments := {} }) : CompileM PUnit) :=
    Keeps.update fun c' hc' => ⟨hc'.table, .empty⟩
  refine Keeps.bind hclear (fun _ => ?_) c hc
  refine (Keeps.forM fun d hd => keeps_mergeDictionary (hc.fragments.dictionaries d hd)).bind
    fun _ => ?_
  refine (Keeps.forM fun d hd => keeps_mergeInterface (hc.fragments.interfaces d hd)).bind
    fun _ => ?_
  refine (Keeps.forM fun d hd => keeps_mergeMixin (hc.fragments.mixins d hd)).bind fun _ => ?_
  exact Keeps.forM fun d _ => keeps_mergeInclusion d

/-- The table that the first two stages make of documents. -/
theorem declared_of_merge {documents : List Document} {scripts : List Script.Source}
    {settings : Settings} {extracted merged : Compilation}
    (hextract : runStage (Stage.extract.action documents scripts) .extract { settings } =
      .ok () extracted)
    (hmerge : runStage (Stage.merge.action documents scripts) .merge extracted = .ok () merged) :
    merged.table.Declared := by
  have hextracted := keeps_declareDocuments documents _ (Declaring.fresh settings) () extracted
    (runStage_ok.mp hextract).1
  exact (keeps_mergeFragments extracted hextracted () merged (runStage_ok.mp hmerge).1).table

/-- The first two stages. -/
def mergeDocuments (documents : List Document) : CompileM Unit :=
  [Stage.extract, .merge].forM fun stage => runStage (stage.action documents []) stage

theorem mergeDocuments_declared {documents : List Document} {settings : Settings}
    {merged : Compilation} (h : mergeDocuments documents { settings } = .ok () merged) :
    merged.table.Declared := by
  obtain ⟨_, hextract, h⟩ := forM_cons_ok.mp h
  obtain ⟨_, hmerge, h⟩ := forM_cons_ok.mp h
  obtain ⟨_, rfl⟩ := pure_ok.mp h
  exact declared_of_merge hextract hmerge

theorem mergeDocuments_clean {documents : List Document} {c merged : Compilation}
    (h : mergeDocuments documents c = .ok () merged) : merged.log.errorCount = 0 := by
  obtain ⟨_, _, h⟩ := forM_cons_ok.mp h
  obtain ⟨_, hmerge, h⟩ := forM_cons_ok.mp h
  obtain ⟨_, rfl⟩ := pure_ok.mp h
  exact (runStage_ok.mp hmerge).2

end IdlModel
