import IdlModel.Proofs.MergedEntities
import IdlModel.Proofs.Outlines
import IdlModel.Proofs.WaitingFragments

/-!
# Pure interfaces

What a callback interface may consist of: constants and methods of objects.

*Rules.*  An interface is *pure* if it is not global and has no constructor, no
attributes and no static methods.  The rules of callback interfaces ask for this, and for
no parent.  Types and names do not matter.

*Additions.*  What is added to an interface keeps it pure if and only if it is pure
itself.

*Declarations.*  Whether a fragment or a mixin is pure is told by its members and
extended attributes.

*Merging.*  So behind the second stage an interface is pure if and only if it was, and the
fragments and mixins of its name are.
-/

namespace IdlModel

open Syntax

/-! ## Rules -/

/-- Members that a callback interface may have. -/
@[mk_iff]
structure Members.IsPure (m : Members) : Prop where
  attributes : m.attributes = []
  staticAttributes : m.staticAttributes = []
  staticMethods : m.staticMethods = []

/-- An interface that consists of what a callback interface may have. -/
@[mk_iff]
structure Interface.IsPure (d : Interface) : Prop where
  notGlobal : d.global = false
  noConstructor : d.constructor = none
  members : d.members.IsPure

/-- The rules ask for a pure interface without a parent. -/
theorem callbackViolation?_eq_none {d : Interface} :
    callbackViolation? d = none ↔ d.parent = none ∧ d.IsPure := by
  have hrule : ∀ {p : Prop} [Decidable p] {issue : Issue} {rest : Option Issue},
      (if p then some issue else rest) = none ↔ ¬ p ∧ rest = none := by
    intro p _ issue rest
    split <;> simp_all
  have hrules : callbackViolation? d = none ↔
      d.parent = none ∧ d.global = false ∧ d.constructor = none ∧
        (d.members.attributes = [] ∧ d.members.staticAttributes = []) ∧
          d.members.staticMethods = [] := by
    simp [callbackViolation?, hrule]
  rw [hrules]
  constructor
  · rintro ⟨hparent, hglobal, hconstructor, ⟨hattributes, hstatic⟩, hmethods⟩
    exact ⟨hparent, hglobal, hconstructor, hattributes, hstatic, hmethods⟩
  · rintro ⟨hparent, hglobal, hconstructor, hattributes, hstatic, hmethods⟩
    exact ⟨hparent, hglobal, hconstructor, ⟨hattributes, hstatic⟩, hmethods⟩

/-- A callback interface that is accepted follows the rules. -/
theorem Interface.isPure_of_accepted {d : Interface} (h : d.isRefused = false)
    (hcallback : d.callback = true) : d.parent = none ∧ d.IsPure := by
  rw [isRefused, hcallback, Bool.true_and, Option.isSome_eq_false_iff,
    Option.isNone_iff_eq_none] at h
  exact callbackViolation?_eq_none.mp h

/-! ### What the rules are not about -/

theorem Members.isPure_blank {m : Members} : m.blank.IsPure ↔ m.IsPure := by
  simp [isPure_iff, blank]

theorem Members.isPure_outline {m : Members} : m.outline.IsPure ↔ m.IsPure := by
  simp [isPure_iff, outline]

theorem Interface.isPure_blank {d : Interface} : d.blank.IsPure ↔ d.IsPure := by
  simp [isPure_iff, blank, Members.isPure_blank]

/-! ## Additions -/

theorem Members.isPure_append {a b : Members} : (a ++ b).IsPure ↔ a.IsPure ∧ b.IsPure := by
  show (a.append b).IsPure ↔ _
  simp only [isPure_iff, append, List.append_eq_nil_iff]
  tauto

/-- An interface with additions that are pure if and only if `P` holds. -/
structure Interface.Extends (P : Prop) (d d' : Interface) : Prop where
  identity : d'.identity = d.identity
  callback : d'.callback = d.callback
  parent : d'.parent = d.parent
  pure : d'.IsPure ↔ d.IsPure ∧ P

namespace Interface.Extends

variable {P Q : Prop} {d d' d'' : Interface}

theorem refl (hP : P) (d : Interface) : d.Extends P d :=
  ⟨rfl, rfl, rfl, (and_iff_left hP).symm⟩

theorem trans (h : d.Extends P d') (h' : d'.Extends Q d'') : d.Extends (P ∧ Q) d'' where
  identity := h'.identity.trans h.identity
  callback := h'.callback.trans h.callback
  parent := h'.parent.trans h.parent
  pure := by rw [h'.pure, h.pure, and_assoc]

theorem congr (h : d.Extends P d') (hPQ : P ↔ Q) : d.Extends Q d' :=
  ⟨h.identity, h.callback, h.parent, by rw [h.pure, hPQ]⟩

theorem members (d : Interface) (m : Members) :
    d.Extends m.IsPure { d with members := d.members ++ m } where
  identity := rfl
  callback := rfl
  parent := rfl
  pure := by
    simp only [isPure_iff, Members.isPure_append]
    tauto

theorem fragment (d f : Interface) :
    d.Extends f.IsPure
      { d with
        members := d.members ++ f.members
        global := d.global || f.global
        constructor := d.constructor <|> f.constructor } where
  identity := rfl
  callback := rfl
  parent := rfl
  pure := by
    simp only [isPure_iff, Members.isPure_append, Bool.or_eq_false_iff,
      Option.orElse_eq_orElse, Option.orElse_eq_or, Option.or_eq_none_iff]
    tauto

end Interface.Extends

/-- An interface stays an interface, and gets additions that are pure if and only if `P`
holds. -/
def Entity.ExtendsTo (d : Interface) (P : Prop) (e : Entity) : Prop :=
  ∃ d', e = .interface d' ∧ d.Extends P d'

namespace Entity.ExtendsTo

variable {α β : Type} {d : Interface} {x : EntityId}

/-- An addition of something that may be found to belong there. -/
theorem changeAt {found : Except Issue β} {place : β → EntityId} {change : β → Entity → Entity}
    {P : β → Prop} (h : ∀ r d, ExtendsTo d (P r) (change r (.interface d))) :
    ExtendsTo d (∀ r, found = .ok r → place r = x → P r)
      (IdlModel.changeAt found place change x (.interface d)) := by
  cases found with
  | error issue => exact ⟨d, rfl, .refl (by simp) d⟩
  | ok r =>
      rw [changeAt_ok]
      split
      next hplace =>
        obtain ⟨d', hd', hextends⟩ := h r d
        exact ⟨d', hd', hextends.congr (by simp [hplace])⟩
      next hplace => exact ⟨d, rfl, .refl (by simp [hplace]) d⟩

/-- Additions one after the other. -/
theorem foldl (step : Entity → α → Entity) {P : α → Prop}
    (h : ∀ a d, ExtendsTo d (P a) (step (.interface d) a)) (as : List α) :
    ExtendsTo d (∀ a ∈ as, P a) (as.foldl step (.interface d)) := by
  induction as generalizing d with
  | nil => exact ⟨d, rfl, .refl (by simp) d⟩
  | cons a as ih =>
    obtain ⟨d₁, hd₁, hfirst⟩ := h a d
    obtain ⟨d₂, hd₂, hrest⟩ := ih (d := d₁)
    rw [List.foldl_cons, hd₁]
    exact ⟨d₂, hd₂, (hfirst.trans hrest).congr List.forall_mem_cons.symm⟩

end Entity.ExtendsTo

/-- A mixin is extended by the fragments that belong to it. -/
theorem Mixin.isPure_foldl {α : Type} {found : α → Except Issue Nat} {members : α → Members}
    (as : List α) (m : Mixin) (i : Nat) :
    (as.foldl (fun m a => changeAt (found a) id (fun _ m => m.extend (members a)) i m) m).identity =
        m.identity ∧
      ((as.foldl (fun m a =>
          changeAt (found a) id (fun _ m => m.extend (members a)) i m) m).members.IsPure ↔
        m.members.IsPure ∧ ∀ a ∈ as, found a = .ok i → (members a).IsPure) := by
  induction as generalizing m with
  | nil => simp
  | cons a as ih =>
    obtain ⟨hidentity, hpure⟩ := ih (changeAt (found a) id (fun _ m => m.extend (members a)) i m)
    rw [List.foldl_cons, hidentity, hpure, List.forall_mem_cons, ← and_assoc]
    cases found a with
    | error issue => simp [changeAt_error]
    | ok j =>
        rw [changeAt_ok]
        split
        next hj =>
          obtain rfl : j = i := hj
          exact ⟨rfl, and_congr_left fun _ => by simp [Mixin.extend, Members.isPure_append]⟩
        next hj =>
          have hne : ¬ j = i := hj
          simp [hne]

/-! ## Declarations -/

namespace Syntax

/-- Whether a member is neither an attribute nor a static method.  An operation without a
name is no method. -/
def Member.isPure : Member → Bool
  | .attribute _ => false
  | .operation d => !(d.isStatic && d.name.isSome)
  | _ => true

/-- Whether a member is a constructor. -/
def Member.isConstructor : Member → Bool
  | .constructor _ => true
  | _ => false

/-- Whether an extended attribute makes an interface global or gives it a constructor. -/
def Annotation.isPure (a : Annotation) : Bool := a.name != "Global" && a.name != "Constructor"

/-- Whether a declaration says nothing that a callback interface may not have. -/
def InterfaceDecl.isPure (d : InterfaceDecl) : Bool :=
  d.annotations.all (·.isPure) && d.members.all fun m => m.isPure && !m.isConstructor

/-- Whether a mixin gives an interface nothing that a callback interface may not have.  A
constructor in a mixin is left out. -/
def MixinDecl.isPure (d : MixinDecl) : Bool := d.members.all (·.isPure)

end Syntax

namespace Body

variable {file owner : String}

theorem isPure_add (b : Body) (m : Member) :
    (b.add file owner m).members.IsPure ↔ b.members.IsPure ∧ m.isPure = true := by
  have hextend : ∀ {b : Body} {m : Members} {p : Bool}, (m.IsPure ↔ p = true) →
      ((b.extend m).members.IsPure ↔ b.members.IsPure ∧ p = true) := fun h =>
    Members.isPure_append.trans (and_congr_right fun _ => h)
  match m with
  | .attribute d =>
      simp only [add]
      split <;> exact hextend (by simp [Members.isPure_iff, Member.isPure])
  | .operation d =>
      simp only [add]
      split
      next hname => simp [note, Member.isPure, hname]
      next hname => split <;> exact hextend (by simp_all [Members.isPure_iff, Member.isPure])
  | .constant d => exact hextend (by simp [Members.isPure_iff, Member.isPure])
  | .constructor d =>
      simp only [add]
      split <;> simp [note, Member.isPure]
  | .iterable _ | .maplike _ | .setlike _ | .stringifier _ => simp [add, note, Member.isPure]

theorem constructor_add (b : Body) (m : Member) :
    (b.add file owner m).constructor = none ↔ b.constructor = none ∧ m.isConstructor = false := by
  match m with
  | .constructor d =>
      simp only [add]
      split <;> simp_all [note, Member.isConstructor]
  | .operation d =>
      simp only [add]
      split
      next => simp [note, Member.isConstructor]
      next => split <;> simp [extend, Member.isConstructor]
  | .attribute d =>
      simp only [add]
      split <;> simp [extend, Member.isConstructor]
  | .constant _ | .iterable _ | .maplike _ | .setlike _ | .stringifier _ =>
      simp [add, note, extend, Member.isConstructor]

/-- A property of bodies to which each member contributes on its own. -/
theorem foldl_add_iff {P : Body → Prop} {Q : Member → Prop}
    (h : ∀ b m, P (add file owner b m) ↔ P b ∧ Q m) (b : Body) (ms : List Member) :
    P (ms.foldl (add file owner) b) ↔ P b ∧ ∀ m ∈ ms, Q m := by
  induction ms generalizing b with
  | nil => simp
  | cons m ms ih => rw [List.foldl_cons, ih, h, and_assoc, List.forall_mem_cons]

theorem isPure_ofMembers {ms : List Member} :
    (ofMembers file owner ms).members.IsPure ↔ ∀ m ∈ ms, m.isPure = true := by
  have hempty : ({} : Body).members.IsPure := ⟨rfl, rfl, rfl⟩
  rw [ofMembers, foldl_add_iff (P := fun b => b.members.IsPure) isPure_add, and_iff_right hempty]

theorem constructor_ofMembers {ms : List Member} :
    (ofMembers file owner ms).constructor = none ↔ ∀ m ∈ ms, m.isConstructor = false := by
  rw [ofMembers, foldl_add_iff (P := fun b => b.constructor = none) constructor_add,
    and_iff_right rfl]

end Body

theorem isGlobal_eq_false {as : List Annotation} :
    isGlobal as = false ↔ ∀ a ∈ as, a.name ≠ "Global" := by
  simp [isGlobal]

theorem annotatedConstructor?_eq_none {as : List Annotation} :
    annotatedConstructor? as = none ↔ ∀ a ∈ as, a.name ≠ "Constructor" := by
  simp [annotatedConstructor?]

theorem isPure_interfaceOf {file package : String} {d : InterfaceDecl} :
    (Compilation.interfaceOf file package d).1.IsPure ↔ d.isPure = true := by
  simp only [Interface.isPure_iff, Compilation.interfaceOf, Body.isPure_ofMembers,
    Body.constructor_ofMembers, Option.orElse_eq_orElse, Option.orElse_eq_or,
    Option.or_eq_none_iff, Option.map_eq_none_iff, isGlobal_eq_false,
    annotatedConstructor?_eq_none, InterfaceDecl.isPure, Annotation.isPure, Bool.and_eq_true,
    List.all_eq_true, bne_iff_ne, Bool.not_eq_true', forall_and]
  tauto

theorem isPure_mixinOf {file package : String} {d : MixinDecl} :
    (mixinOf file package d).members.IsPure ↔ d.isPure = true := by
  simp only [mixinOf, Body.isPure_ofMembers, MixinDecl.isPure, List.all_eq_true]

/-! ## The second stage -/

namespace SymbolTable

variable {t t' : SymbolTable} {f : Fragments} {x : EntityId} {d : Interface}

/-- A merged mixin is pure if and only if all declarations of its name are. -/
theorem Merged.mixin_pure (ht : t.Declared) (hmerged : t.Merged f t') {i : Nat} {name : String}
    {m' : Mixin} (hi : t.lookup? name = some (.mixin i)) (hm' : t'.mixins[i]? = some m') :
    m'.members.IsPure ↔ ∀ m, m ∈ t.mixins.toList ∨ m ∈ f.mixins → m.identity.idl = name →
      m.members.IsPure := by
  obtain ⟨m₀, hm₀, rfl⟩ := (ht.mixins name i).mp hi
  have hfold := hmerged.mixins i
  rw [hm', hm₀, Option.map_some] at hfold
  obtain rfl := Option.some.inj hfold
  rw [(Mixin.isPure_foldl f.mixins m₀ i).2]
  have hbase := ht.baseMixin_eq_ok hm₀
  constructor
  · rintro ⟨hown, hfragments⟩ m (hm | hm) hname
    · obtain ⟨j, hj⟩ := List.mem_iff_getElem?.mp hm
      have hlookup := (ht.mixins _ j).mpr ⟨m, by simpa using hj, hname⟩
      obtain rfl := Symbol.mixin.inj (Option.some.inj (hlookup.symm.trans hi))
      have hj' : t.mixins[j]? = some m := by simpa using hj
      obtain rfl := Option.some.inj (hj'.symm.trans hm₀)
      exact hown
    · exact hfragments m hm ((hbase _).mpr hname)
  · intro hall
    refine ⟨hall m₀ (.inl ?_) rfl, fun m hm hbelongs => hall m (.inr hm) ((hbase _).mp hbelongs)⟩
    exact List.mem_iff_getElem?.mpr ⟨i, by simpa using hm₀⟩

/-- What an includes statement adds to an interface is pure if and only if it is about
another one or all declarations of the mixin are pure. -/
theorem Merged.inclusion_pure (ht : t.Declared) (hmerged : t.Merged f t') (hfound : t.AllFound f t')
    (hd : t.entity? x = some (.interface d)) {s : Inclusion} (hs : s ∈ f.inclusions) :
    (∀ r, t'.inclusionOf s = .ok r → r.1 = x → r.2.members.IsPure) ↔
      (s.target = d.identity.idl → ∀ m, m ∈ t.mixins.toList ∨ m ∈ f.mixins →
        m.identity.idl = s.mixin → m.members.IsPure) := by
  obtain ⟨⟨y, m'⟩, hr⟩ := hfound.inclusions s hs
  obtain ⟨⟨htarget, _⟩, i, hi, hm'⟩ := inclusionOf_ok.mp hr
  have hlookup : t'.lookup? = t.lookup? := by
    funext name
    rw [lookup?, lookup?, hmerged.frame.names]
  rw [lookupType?_eq_some, hlookup, ht.types] at htarget
  rw [hlookup] at hi
  have hplace : y = x ↔ s.target = d.identity.idl := by
    obtain ⟨e, he, hkey⟩ := htarget
    constructor
    · rintro rfl
      obtain rfl := Option.some.inj (he.symm.trans hd)
      exact hkey.symm
    · exact fun hname => ht.id_unique he hd (hkey.trans hname)
  rw [hr]
  simp only [Except.ok.injEq, forall_eq', hplace, hmerged.mixin_pure ht hi hm']

/-- What merging adds to an interface is pure if and only if the fragments and the mixins
for its name are. -/
theorem Merged.extendsTo (ht : t.Declared) (hmerged : t.Merged f t') (hfound : t.AllFound f t')
    (hd : t.entity? x = some (.interface d)) :
    ∃ d', t'.entity? x = some (.interface d') ∧ d.Extends
      ((∀ p ∈ f.interfaces, p.identity.idl = d.identity.idl → p.IsPure) ∧
        ∀ s ∈ f.inclusions, s.target = d.identity.idl → ∀ m, m ∈ t.mixins.toList ∨ m ∈ f.mixins →
          m.identity.idl = s.mixin → m.members.IsPure) d' := by
  obtain ⟨d₁, hd₁, hfirst⟩ := Entity.ExtendsTo.foldl (d := d)
    (fun e (p : Dictionary) => changeAt (t.baseOf p.identity.idl .dictionary) id
      (fun _ => Entity.addFields p.members) x e)
    (fun _ _ => .changeAt fun _ d => ⟨d, rfl, .refl trivial d⟩) f.dictionaries
  obtain ⟨d₂, hd₂, hsecond⟩ := Entity.ExtendsTo.foldl (d := d₁)
    (fun e (p : Interface) => changeAt (t.baseOf p.identity.idl .interface) id
      (fun _ => Entity.addFragment p) x e)
    (fun p _ => .changeAt fun _ d => ⟨_, rfl, .fragment d p⟩) f.interfaces
  obtain ⟨d₃, hd₃, hthird⟩ := Entity.ExtendsTo.foldl (d := d₂)
    (fun e s => changeAt (t'.inclusionOf s) Prod.fst (fun r => Entity.addMembers r.2.members) x e)
    (fun _ _ => .changeAt fun r d => ⟨_, rfl, .members d r.2.members⟩) f.inclusions
  rw [hmerged.entities, hd, Option.map_some, hd₁, hd₂, hd₃]
  refine ⟨d₃, rfl, ((hfirst.trans hsecond).trans hthird).congr (and_congr ?_ ?_)⟩
  · have hplace : ∀ p : Interface,
        (∀ r, t.baseOf p.identity.idl .interface = .ok r → id r = x → p.IsPure) ↔
          (p.identity.idl = d.identity.idl → p.IsPure) := by
      intro p
      have hbase : t.baseOf p.identity.idl .interface = .ok x ↔ p.identity.idl = d.identity.idl :=
        (ht.baseOf_eq_ok hd _ _).trans (and_iff_right rfl)
      rw [← hbase]
      constructor
      · exact fun h hr => h x hr rfl
      · rintro h r hr rfl
        exact h hr
    simp only [hplace, implies_true, true_and]
  · exact forall₂_congr fun s hs => hmerged.inclusion_pure ht hfound hd hs

end SymbolTable

end IdlModel
