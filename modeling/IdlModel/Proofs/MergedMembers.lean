import Mathlib.Data.List.Basic
import IdlModel.Proofs.MergedEntities
import IdlModel.Proofs.WaitingFragments

/-!
# Merging in closed form

What the second stage makes of the definitions of some documents, told without its rounds.

*Members.*  Lists of members are joined list by list.  The folds of a round are such joins.

*Places.*  Of what waits, a fragment is for the entity or the mixin of its name, if this is
of its kind.  So everything that an entity gets can be selected by its name, wherever the
fragments stand: `Fragments.complete`.

*Reports.*  A fragment or a statement with an operand that is missing or of another kind is
one error and nothing else: `Fragments.misplaced`.

A fragment marked as a callback interface that breaks a rule of these is refused when it is
read, so it does not wait.
-/

namespace IdlModel

open Syntax

/-! ## Joined members -/

namespace Members

variable (m : Members) (ms : List Members)

/-- Some members after one another, list by list. -/
def join : Members :=
  { constants := ms.flatMap (·.constants)
    attributes := ms.flatMap (·.attributes)
    staticAttributes := ms.flatMap (·.staticAttributes)
    methods := ms.flatMap (·.methods)
    staticMethods := ms.flatMap (·.staticMethods) }

theorem join_nil : join [] = {} := rfl

theorem join_cons : join (m :: ms) = m ++ join ms := rfl

theorem append_empty : m ++ ({} : Members) = m := by
  show m.append {} = m
  simp [append]

theorem append_assoc (a b : Members) : m ++ a ++ b = m ++ (a ++ b) := by
  show (m.append a).append b = m.append (a.append b)
  simp [append]

theorem join_append (ms' : List Members) : join (ms ++ ms') = join ms ++ join ms' := by
  show _ = (join ms).append (join ms')
  simp [join, append]

end Members

namespace Entity

theorem addMembers_empty (e : Entity) : e.addMembers {} = e := by
  cases e with
  | interface d => simp only [addMembers, Members.append_empty]
  | _ => rfl

theorem addMembers_append (e : Entity) (a b : Members) :
    (e.addMembers a).addMembers b = e.addMembers (a ++ b) := by
  cases e with
  | interface d => simp only [addMembers, Members.append_assoc]
  | _ => rfl

theorem foldl_addFields (ps : List Dictionary) (d : Dictionary) :
    ps.foldl (fun (e : Entity) p => e.addFields p.members) (.dictionary d) =
      .dictionary { d with members := d.members ++ ps.flatMap (·.members) } := by
  induction ps generalizing d with
  | nil => simp
  | cons p ps ih =>
    rw [List.foldl_cons, addFields, ih, List.flatMap_cons, List.append_assoc]

/-- The first of the fragments with a constructor gives it, if the interface has none. -/
theorem foldl_addFragment (ps : List Interface) (d : Interface) :
    ps.foldl (fun (e : Entity) p => e.addFragment p) (.interface d) =
      .interface { d with
        members := d.members ++ Members.join (ps.map (·.members))
        global := d.global || ps.any (·.global)
        constructor := d.constructor <|> ps.findSome? (·.constructor) } := by
  induction ps generalizing d with
  | nil =>
    rw [List.map_nil, Members.join_nil, Members.append_empty]
    simp
  | cons p ps ih =>
    have hconstructor : ((d.constructor <|> p.constructor) <|> ps.findSome? (·.constructor)) =
        (d.constructor <|> (p :: ps).findSome? (·.constructor)) := by
      rw [List.findSome?_cons]
      cases d.constructor <;> cases p.constructor <;> rfl
    rw [List.foldl_cons, addFragment, ih, List.map_cons, Members.join_cons, Members.append_assoc,
      hconstructor, List.any_cons, Bool.or_assoc]

end Entity

theorem Mixin.foldl_extend (ps : List Mixin) (m : Mixin) :
    ps.foldl (fun m p => m.extend p.members) m =
      { m with members := Members.join (m.members :: ps.map (·.members)) } := by
  induction ps generalizing m with
  | nil =>
    rw [List.foldl_nil, List.map_nil, Members.join_cons]
    exact congrArg (fun members => { m with members }) m.members.append_empty.symm
  | cons p ps ih =>
    rw [List.foldl_cons, ih, extend, List.map_cons, Members.join_cons, Members.join_cons,
      Members.join_cons, Members.append_assoc]

/-! ## Names -/

namespace SymbolTable

/-- The mixin of a name. -/
def mixin? (t : SymbolTable) (name : String) : Option Mixin :=
  match t.lookup? name with
  | some (.mixin i) => t.mixins[i]?
  | _ => none

/-- The kind of what is declared under a name. -/
def kindOf? (t : SymbolTable) (name : String) : Option DeclarationKind :=
  (t.lookup? name).bind t.declarationKind?

/-- What is wrong with a fragment of a kind, if nothing of its name is of this kind. -/
def baseIssue? (t : SymbolTable) (kind : DeclarationKind) (name : String) : Option Issue :=
  match t.kindOf? name with
  | none => some (.unknownBase kind name)
  | some found => if found = kind then none else some (.kindMismatch name kind found)

/-- What is wrong with an includes statement, if its operands are no interface and no mixin. -/
def inclusionIssue? (t : SymbolTable) (s : Inclusion) : Option Issue :=
  if t.kindOf? s.target ≠ some (.entity .interface) then some (.unknownTarget s.target)
  else if t.kindOf? s.mixin ≠ some .mixin then some (.unknownMixin s.mixin)
  else none

end SymbolTable

/-! ## The closed form -/

namespace Fragments

/-- What some definitions put aside. -/
def ofDefinitions (settings : Settings) (ds : List (String × Definition)) : Fragments :=
  { interfaces := ds.filterMap (interfaceFragment? settings)
    dictionaries := ds.filterMap (dictionaryFragment? settings)
    mixins := ds.filterMap (mixinFragment? settings)
    inclusions := ds.filterMap inclusion? }

variable (f : Fragments) (t : SymbolTable)

/-- The fragments of the interface of a name. -/
def interfacesOf (name : String) : List Interface := f.interfaces.filter (·.identity.idl == name)

/-- The fragments of the dictionary of a name. -/
def dictionariesOf (name : String) : List Dictionary :=
  f.dictionaries.filter (·.identity.idl == name)

/-- The fragments of the mixin of a name. -/
def mixinsOf (name : String) : List Mixin := f.mixins.filter (·.identity.idl == name)

/-- The includes statements for the interface of a name. -/
def inclusionsOf (name : String) : List Inclusion := f.inclusions.filter (·.target == name)

/-- The members of a mixin: its own, and those of its fragments. -/
def mixinParts (m : Mixin) : List Members :=
  m.members :: (f.mixinsOf m.identity.idl).map (·.members)

/-- The members that an includes statement adds, which are none without its mixin. -/
def inclusionParts (s : Inclusion) : List Members := (t.mixin? s.mixin).elim [] f.mixinParts

/-- An interface with all that belongs to it. -/
def completeInterface (d : Interface) : Interface :=
  let fragments := f.interfacesOf d.identity.idl
  let inclusions := f.inclusionsOf d.identity.idl
  { d with
    members := Members.join
      (d.members :: fragments.map (·.members) ++ inclusions.flatMap (f.inclusionParts t))
    global := d.global || fragments.any (·.global)
    constructor := d.constructor <|> fragments.findSome? (·.constructor) }

/-- A dictionary with all that belongs to it. -/
def completeDictionary (d : Dictionary) : Dictionary :=
  { d with members := d.members ++ (f.dictionariesOf d.identity.idl).flatMap (·.members) }

/-- An entity with all that belongs to it. -/
def complete : Entity → Entity
  | .interface d => .interface (f.completeInterface t d)
  | .dictionary d => .dictionary (f.completeDictionary d)
  | e => e

/-- A mixin with all that belongs to it. -/
def completeMixin (m : Mixin) : Mixin := { m with members := Members.join (f.mixinParts m) }

/-- The fragments and statements with an operand that is missing or of another kind, with what
is wrong. -/
def misplaced : List LocatedIssue :=
  (f.dictionaries.filterMap fun d =>
      (t.baseIssue? (.entity .dictionary) d.identity.idl).map (·, d.identity.source)) ++
    (f.interfaces.filterMap fun d =>
      (t.baseIssue? (.entity .interface) d.identity.idl).map (·, d.identity.source)) ++
    (f.mixins.filterMap fun d => (t.baseIssue? .mixin d.identity.idl).map (·, d.identity.source)) ++
    f.inclusions.filterMap fun s => (t.inclusionIssue? s).map (·, s.source)

end Fragments

/-! ## Places -/

/-- A fold over what is found to belong somewhere is one over what is selected for this
place. -/
theorem foldl_changeAt {α κ ν : Type} [DecidableEq κ] {found : α → Except Issue κ}
    {change : α → ν → ν} {x : κ} {here : α → Bool} (h : ∀ d, found d = .ok x ↔ here d = true)
    (ds : List α) (v : ν) :
    ds.foldl (fun v d => changeAt (found d) id (fun _ => change d) x v) v =
      (ds.filter here).foldl (fun v d => change d v) v := by
  rw [List.foldl_filter]
  congr 1
  funext v d
  cases hfound : found d with
  | error issue =>
      have hhere : ¬ here d = true := fun hd => nomatch hfound.symm.trans ((h d).mpr hd)
      rw [changeAt_error, if_neg hhere]
  | ok y =>
      have hiff : id y = x ↔ here d = true := by rw [← h d, hfound, Except.ok.injEq, id]
      simp only [changeAt_ok, hiff]

namespace SymbolTable

variable {f : Fragments} {t t' : SymbolTable} {x : EntityId} {e : Entity}

theorem Merged.mixin_eq (ht : t.Declared) (hmerged : t.Merged f t') {i : Nat} {m : Mixin}
    (hm : t.mixins[i]? = some m) : t'.mixins[i]? = some (f.completeMixin m) := by
  have hhere : ∀ d : Mixin, t.baseMixin d.identity.idl = .ok i ↔
      (d.identity.idl == m.identity.idl) = true := fun d => by
    rw [ht.baseMixin_eq_ok hm, beq_iff_eq]
  rw [hmerged.mixins, hm, Option.map_some, foldl_changeAt hhere, Mixin.foldl_extend]
  rfl

/-- What an includes statement adds to an entity. -/
theorem Merged.changeAt_inclusion (ht : t.Declared) (hmerged : t.Merged f t')
    (he : t.entity? x = some e) (s : Inclusion) (v : Entity) :
    changeAt (t'.inclusionOf s) Prod.fst (fun r => Entity.addMembers r.2.members) x v =
      if e.kind = .interface ∧ s.target = e.key then
        v.addMembers (Members.join (f.inclusionParts t s)) else v := by
  have hlookup : t'.lookup? = t.lookup? := by
    funext name
    rw [lookup?, lookup?, hmerged.frame.names]
  have htarget : (t'.lookupType? s.target = some x ∧ t'.kind? x = some .interface) ↔
      e.kind = .interface ∧ s.target = e.key := by
    rw [hmerged.frame.lookupType?_eq, hmerged.frame.kinds, ← baseOf_ok, ht.baseOf_eq_ok he]
  cases hfound : t'.inclusionOf s with
  | ok r =>
      obtain ⟨y, m'⟩ := r
      obtain ⟨hy, i, hi, hm'⟩ := inclusionOf_ok.mp hfound
      rw [hlookup] at hi
      obtain ⟨m, hm, _⟩ := (ht.mixins s.mixin i).mp hi
      obtain rfl : m' = f.completeMixin m := by
        rw [hmerged.mixin_eq ht hm] at hm'
        exact (Option.some.inj hm').symm
      have hparts : f.inclusionParts t s = f.mixinParts m := by
        simp only [Fragments.inclusionParts, mixin?, hi, hm, Option.elim_some]
      have hplace : y = x ↔ e.kind = .interface ∧ s.target = e.key := by
        rw [← htarget]
        constructor
        · rintro rfl
          exact hy
        · exact fun hx => Option.some.inj (hy.1.symm.trans hx.1)
      rw [changeAt_ok, hparts]
      simp only [hplace]
      rfl
  | error issue =>
      rw [changeAt_error]
      split
      next hhere =>
        have hparts : f.inclusionParts t s = [] := by
          unfold Fragments.inclusionParts mixin?
          split
          next i hi =>
            cases hm : t.mixins[i]? with
            | none => rfl
            | some m =>
                have hok := inclusionOf_ok.mpr
                  ⟨htarget.mpr hhere, i, hlookup ▸ hi, hmerged.mixin_eq ht hm⟩
                cases hfound.symm.trans hok
          next => rfl
        rw [hparts]
        exact v.addMembers_empty.symm
      next => rfl

/-- What the includes statements add to an entity, in order. -/
theorem Merged.foldl_inclusions (ht : t.Declared) (hmerged : t.Merged f t')
    (he : t.entity? x = some e) (ss : List Inclusion) (v : Entity) :
    ss.foldl (fun v s =>
        changeAt (t'.inclusionOf s) Prod.fst (fun r => Entity.addMembers r.2.members) x v) v =
      if e.kind = .interface then
        v.addMembers (Members.join
          ((ss.filter (·.target == e.key)).flatMap (f.inclusionParts t))) else v := by
  induction ss generalizing v with
  | nil =>
    split
    · exact v.addMembers_empty.symm
    · rfl
  | cons s ss ih =>
    rw [List.foldl_cons, ih, hmerged.changeAt_inclusion ht he]
    by_cases hkind : e.kind = .interface
    · simp only [hkind, true_and, if_true]
      by_cases hname : s.target = e.key
      · rw [if_pos hname, List.filter_cons_of_pos (by simpa using hname), List.flatMap_cons,
          Members.join_append, Entity.addMembers_append]
      · rw [if_neg hname, List.filter_cons_of_neg (by simpa using hname)]
    · simp only [hkind, false_and, if_false]

theorem Merged.entity_eq (ht : t.Declared) (hmerged : t.Merged f t') (he : t.entity? x = some e) :
    t'.entity? x = some (f.complete t e) := by
  have hbase : ∀ (kind : EntityKind) (name : String), t.baseOf name kind = .ok x ↔
      (e.kind == kind && name == e.key) = true := fun kind name => by
    rw [ht.baseOf_eq_ok he, Bool.and_eq_true, beq_iff_eq, beq_iff_eq]
  rw [hmerged.entities, he, Option.map_some, hmerged.foldl_inclusions ht he,
    foldl_changeAt fun d : Interface => hbase .interface d.identity.idl,
    foldl_changeAt fun d : Dictionary => hbase .dictionary d.identity.idl]
  have hnone : ∀ {α : Type} (ds : List α), ds.filter (fun _ => false) = [] := fun ds =>
    List.filter_eq_nil_iff.mpr fun _ _ => Bool.false_ne_true
  cases e with
  | interface d =>
      show some ((List.foldl _ (List.foldl _ (Entity.interface d)
        (f.dictionaries.filter fun _ => false)) (f.interfacesOf d.identity.idl)).addMembers _) = _
      rw [hnone, List.foldl_nil, Entity.foldl_addFragment, Fragments.complete,
        Fragments.completeInterface, Members.join_append, Members.join_cons]
      rfl
  | dictionary d =>
      show some (List.foldl _ (List.foldl _ (Entity.dictionary d)
        (f.dictionariesOf d.identity.idl)) (f.interfaces.filter fun _ => false)) = _
      rw [hnone, List.foldl_nil, Entity.foldl_addFields]
      rfl
  | enumeration d =>
      show some (List.foldl _ (List.foldl _ _ (f.dictionaries.filter fun _ => false))
        (f.interfaces.filter fun _ => false)) = _
      rw [hnone, hnone]
      rfl
  | callback d =>
      show some (List.foldl _ (List.foldl _ _ (f.dictionaries.filter fun _ => false))
        (f.interfaces.filter fun _ => false)) = _
      rw [hnone, hnone]
      rfl

theorem Merged.slots_eq (ht : t.Declared) (hmerged : t.Merged f t') :
    t'.slots = t.slots.map fun slot => { slot with entity := f.complete t slot.entity } := by
  refine Array.ext_getElem? fun i => ?_
  have hentity : t'.slots[i]?.map (·.entity) = (t.slots[i]?.map (·.entity)).map (f.complete t) := by
    change t'.entity? ⟨i⟩ = (t.entity? ⟨i⟩).map (f.complete t)
    cases he : t.entity? ⟨i⟩ with
    | none => rw [hmerged.entities, he, Option.map_none, Option.map_none]
    | some e => rw [hmerged.entity_eq ht he, Option.map_some]
  have hmark := hmerged.frame.marks ⟨i⟩
  simp only [isInUse] at hmark
  rw [Array.getElem?_map]
  cases hslot : t.slots[i]? with
  | none =>
      rw [hslot, Option.map_none, Option.map_none, Option.map_eq_none_iff] at hentity
      rw [hentity, Option.map_none]
  | some slot =>
      rw [hslot, Option.map_some, Option.map_some, Option.map_eq_some_iff] at hentity
      obtain ⟨⟨e', inUse'⟩, hslot', rfl⟩ := hentity
      simp only [hslot, hslot'] at hmark
      rw [hslot', Option.map_some, hmark]

theorem Merged.mixins_eq (ht : t.Declared) (hmerged : t.Merged f t') :
    t'.mixins = t.mixins.map f.completeMixin := by
  refine Array.ext_getElem? fun i => ?_
  rw [Array.getElem?_map]
  cases hm : t.mixins[i]? with
  | none => rw [hmerged.mixins, hm, Option.map_none, Option.map_none]
  | some m => rw [hmerged.mixin_eq ht hm, Option.map_some]

/-- The whole table. -/
theorem Merged.table_eq (ht : t.Declared) (hmerged : t.Merged f t') :
    t' = { t with
      slots := t.slots.map fun slot => { slot with entity := f.complete t slot.entity }
      mixins := t.mixins.map f.completeMixin } := by
  have hslots := hmerged.slots_eq ht
  have hmixins := hmerged.mixins_eq ht
  have hnames := hmerged.frame.names
  have htypedefs := hmerged.frame.typedefs
  have hpromises := hmerged.frame.promises
  clear hmerged
  obtain ⟨slots', names', mixins', typedefs', promises'⟩ := t'
  dsimp only at hslots hmixins hnames htypedefs hpromises
  rw [hslots, hmixins, hnames, htypedefs, hpromises]

/-! ## Reports -/

/-- A name of the index stands for something of a kind. -/
theorem Declared.kindOf?_of_lookup? (ht : t.Declared) {name : String} {symbol : Symbol}
    (h : t.lookup? name = some symbol) :
    t.kindOf? name = some ((t.declarationKind? symbol).getD .mixin) := by
  rw [kindOf?, h, Option.bind_some]
  cases symbol with
  | type id =>
      obtain ⟨e, he, _⟩ := (ht.types name id).mp h
      simp only [declarationKind?, kind?_eq he, Option.map_some, Option.getD_some]
  | mixin i => rfl
  | typedef i => rfl

theorem Declared.problem?_baseOf (ht : t.Declared) (name : String) (kind : EntityKind)
    (at_ : Location) : problem? (t.baseOf name kind) at_ =
      (t.baseIssue? (.entity kind) name).map (·, at_) := by
  unfold baseOf baseIssue?
  cases hlookup : t.lookup? name with
  | none =>
      rw [kindOf?, hlookup]
      rfl
  | some symbol =>
      rw [ht.kindOf?_of_lookup? hlookup]
      cases symbol with
      | type id =>
          obtain ⟨e, he, _⟩ := (ht.types name id).mp hlookup
          by_cases hkind : e.kind = kind
          · simp [problem?, declarationKind?, kind?_eq he, hkind]
          · simp [problem?, declarationKind?, kind?_eq he, hkind]
      | mixin i => rfl
      | typedef i => rfl

theorem Declared.problem?_baseMixin (ht : t.Declared) (name : String) (at_ : Location) :
    problem? (t.baseMixin name) at_ = (t.baseIssue? .mixin name).map (·, at_) := by
  unfold baseMixin baseIssue?
  cases hlookup : t.lookup? name with
  | none =>
      rw [kindOf?, hlookup]
      rfl
  | some symbol =>
      rw [ht.kindOf?_of_lookup? hlookup]
      cases symbol with
      | type id =>
          obtain ⟨e, he, _⟩ := (ht.types name id).mp hlookup
          simp [problem?, declarationKind?, kind?_eq he]
      | mixin i => rfl
      | typedef i => rfl

theorem baseIssue?_eq_none {kind : DeclarationKind} {name : String} :
    t.baseIssue? kind name = none ↔ t.kindOf? name = some kind := by
  unfold baseIssue?
  cases t.kindOf? name with
  | none => simp
  | some found => simp

theorem Declared.kindOf?_eq_entity (ht : t.Declared) {name : String} {kind : EntityKind} :
    t.kindOf? name = some (.entity kind) ↔ ∃ x, t.baseOf name kind = .ok x := by
  rw [← baseIssue?_eq_none, ← problem?_eq_none, ht.problem?_baseOf name kind default,
    Option.map_eq_none_iff]

theorem Declared.kindOf?_eq_mixin (ht : t.Declared) {name : String} :
    t.kindOf? name = some .mixin ↔ ∃ i, t.baseMixin name = .ok i := by
  rw [← baseIssue?_eq_none, ← problem?_eq_none, ht.problem?_baseMixin name default,
    Option.map_eq_none_iff]

theorem Declared.problem?_inclusionOf (ht : t.Declared) (s : Inclusion) (at_ : Location) :
    problem? (t.inclusionOf s) at_ = (t.inclusionIssue? s).map (·, at_) := by
  unfold inclusionOf inclusionIssue?
  cases htarget : (t.lookupType? s.target).filter (t.kind? · == some .interface) with
  | none =>
      have hkind : t.kindOf? s.target ≠ some (.entity .interface) := by
        rw [Ne, ht.kindOf?_eq_entity]
        rintro ⟨x, hx⟩
        obtain ⟨hlookup, hx⟩ := baseOf_ok.mp hx
        simp [hlookup, hx] at htarget
      rw [if_pos hkind]
      rfl
  | some x =>
      have hkind : t.kindOf? s.target = some (.entity .interface) := by
        rw [Option.filter_eq_some_iff, beq_iff_eq] at htarget
        exact ht.kindOf?_eq_entity.mpr ⟨x, baseOf_ok.mpr htarget⟩
      rw [if_neg (not_not.mpr hkind)]
      by_cases hmixin : t.kindOf? s.mixin = some .mixin
      · obtain ⟨i, hi⟩ := ht.kindOf?_eq_mixin.mp hmixin
        rw [baseMixin_ok] at hi
        obtain ⟨m, hm, _⟩ := (ht.mixins _ i).mp hi
        simp [problem?, hmixin, hi, hm]
      · rw [if_pos hmixin]
        have hi : ∀ i, t.lookup? s.mixin ≠ some (.mixin i) := fun i hi =>
          hmixin (ht.kindOf?_eq_mixin.mpr ⟨i, baseMixin_ok.mpr hi⟩)
        dsimp only
        split
        next i hlookup => exact absurd hlookup (hi i)
        next => rfl

theorem inclusionIssue?_eq_none {s : Inclusion} : t.inclusionIssue? s = none ↔
    t.kindOf? s.target = some (.entity .interface) ∧ t.kindOf? s.mixin = some .mixin := by
  unfold inclusionIssue?
  split
  next h => simp [h]
  next h =>
    split
    next h' => simp [h']
    next h' => simp [not_not.mp h, not_not.mp h']

theorem SameFrame.kindOf?_eq (h : t.SameFrame t') : t'.kindOf? = t.kindOf? := by
  funext name
  have hkind : t'.declarationKind? = t.declarationKind? := by
    funext symbol
    cases symbol with
    | type id => simp only [declarationKind?, h.kinds]
    | mixin i => rfl
    | typedef i => rfl
  simp only [kindOf?, lookup?, h.names, hkind]

/-- What the stage reports is told by the names of the table in front of it. -/
theorem Merged.problems_eq (ht : t.Declared) (ht' : t'.Declared) (hmerged : t.Merged f t') :
    f.problems t t' = f.misplaced t := by
  have hinclusion : t'.inclusionIssue? = t.inclusionIssue? := by
    funext s
    simp only [inclusionIssue?, hmerged.frame.kindOf?_eq]
  simp only [Fragments.problems, Fragments.misplaced, ht.problem?_baseOf, ht.problem?_baseMixin,
    ht'.problem?_inclusionOf, hinclusion]

end SymbolTable

namespace Fragments

variable (f : Fragments) (t : SymbolTable)

/-- One error for each operand that is missing or of another kind. -/
theorem length_misplaced : (f.misplaced t).length =
    f.dictionaries.countP (fun d => t.kindOf? d.identity.idl != some (.entity .dictionary)) +
      f.interfaces.countP (fun d => t.kindOf? d.identity.idl != some (.entity .interface)) +
      f.mixins.countP (fun d => t.kindOf? d.identity.idl != some .mixin) +
      f.inclusions.countP (fun s => t.kindOf? s.target != some (.entity .interface) ||
        t.kindOf? s.mixin != some .mixin) := by
  have hbase : ∀ (kind : DeclarationKind) (name : String) (at_ : Location),
      ((t.baseIssue? kind name).map fun issue => (issue, at_)).isSome =
        (t.kindOf? name != some kind) := fun kind name at_ => by
    rw [Option.isSome_map, Bool.eq_iff_iff, bne_iff_ne, Option.isSome_iff_ne_none, Ne, Ne,
      SymbolTable.baseIssue?_eq_none]
  have hinclusion : ∀ s : Inclusion,
      ((t.inclusionIssue? s).map fun issue => (issue, s.source)).isSome =
        (t.kindOf? s.target != some (.entity .interface) || t.kindOf? s.mixin != some .mixin) :=
    fun s => by
      rw [Option.isSome_map, Bool.eq_iff_iff, Bool.or_eq_true, bne_iff_ne, bne_iff_ne,
        Option.isSome_iff_ne_none, Ne, SymbolTable.inclusionIssue?_eq_none, not_and_or]
  simp only [misplaced, List.length_append, List.length_filterMap_eq_countP, hbase, hinclusion]

end Fragments

/-! ## The stage -/

/-- What waits behind the first stage. -/
theorem Extracted.fragments_eq {settings : Settings} {ds : List (String × Definition)}
    {c : Compilation} (h : Extracted settings ds c) :
    c.fragments = Fragments.ofDefinitions settings ds := by
  rw [Fragments.ofDefinitions, ← h.interfaces, ← h.dictionaries, ← h.mixins, ← h.inclusions]

/-- Merging completes every entity and every mixin of the table by what the documents put aside
for it, wherever this stands, and reports each fragment and each includes statement with an
operand that is missing or of another kind, as one error.  Nothing else changes.  What is
completed is as it was declared. -/
theorem mergeFragments_complete {documents : List Document} {settings : Settings}
    {extracted merged : Compilation}
    (hextract : documents.forM declareDocument { settings } = .ok () extracted)
    (hmerge : mergeFragments extracted = .ok () merged) :
    let f := Fragments.ofDefinitions settings (located documents)
    let t := extracted.table
    merged = { extracted with
        table := { t with
          slots := t.slots.map fun slot => { slot with entity := f.complete t slot.entity }
          mixins := t.mixins.map f.completeMixin }
        log := extracted.log.reportAll (f.misplaced t)
        fragments := {} } ∧
      merged.errors = extracted.errors +
        (f.dictionaries.countP (fun d => t.kindOf? d.identity.idl != some (.entity .dictionary)) +
          f.interfaces.countP (fun d => t.kindOf? d.identity.idl != some (.entity .interface)) +
          f.mixins.countP (fun d => t.kindOf? d.identity.idl != some .mixin) +
          f.inclusions.countP (fun s => t.kindOf? s.target != some (.entity .interface) ||
            t.kindOf? s.mixin != some .mixin)) ∧
      (∀ x e, t.entity? x = some e →
        ∃ a ∈ located documents, declaredEntity? settings a = some e) ∧
      ∀ m ∈ t.mixins, ∃ a ∈ located documents, declaredMixin? settings a = some m := by
  intro f t
  have hwaiting : Extracted settings (located documents) extracted :=
    declareDocuments_extracted (.fresh settings) hextract
  have hdeclaring := keeps_declareDocuments documents _ (.fresh settings) () extracted hextract
  have hdeclaring' := keeps_mergeFragments extracted hdeclaring () merged hmerge
  obtain ⟨hmerged, hstate⟩ := mergeFragments_spec hmerge
  rw [hwaiting.fragments_eq] at hmerged hstate
  rw [hmerged.problems_eq hdeclaring.table hdeclaring'.table] at hstate
  refine ⟨?_, ?_, hwaiting.entities, hwaiting.mixed⟩
  · rw [← hmerged.table_eq hdeclaring.table]
    exact hstate
  · have hlog : merged.log = extracted.log.reportAll (f.misplaced t) :=
      congrArg Compilation.log hstate
    rw [Compilation.errors, hlog, Log.errorCount_reportAll, Fragments.length_misplaced]
    · rfl
    · rw [← hmerged.problems_eq hdeclaring.table hdeclaring'.table]
      exact Fragments.problems_error

/-- The first two stages with the states behind them. -/
def declareAndMerge (documents : List Document) : CompileM (Compilation × Compilation) := do
  documents.forM declareDocument
  let extracted ← get
  mergeFragments
  return (extracted, ← get)

theorem declareAndMerge_ok {documents : List Document} {c c' extracted merged : Compilation}
    (h : declareAndMerge documents c = .ok (extracted, merged) c') :
    documents.forM declareDocument c = .ok () extracted ∧
      mergeFragments extracted = .ok () merged := by
  obtain ⟨_, c₁, hextract, hrest⟩ := bind_ok.mp h
  obtain ⟨_, _, hget, hmerging⟩ := bind_ok.mp hrest
  obtain ⟨rfl, rfl⟩ := get_ok.mp hget
  obtain ⟨_, c₂, hmerge, hanswer⟩ := bind_ok.mp hmerging
  obtain ⟨_, _, hget', hpure⟩ := bind_ok.mp hanswer
  obtain ⟨rfl, rfl⟩ := get_ok.mp hget'
  obtain ⟨hpair, _⟩ := pure_ok.mp hpure
  obtain ⟨rfl, rfl⟩ := Prod.mk.inj hpair
  exact ⟨hextract, hmerge⟩

/-- An attribute `long name`. -/
def longAttribute (name : String) : Member := .attribute { name, type := .named "long" }

/-- A fragment, an includes statement and a fragment of a mixin stand in front of what they
belong to.  The fragment of a dictionary belongs nowhere. -/
def scattered : List Document :=
  [{ name := "first.idl"
     definitions :=
      [.interface { name := "Node", isPartial := true, members := [longAttribute "added"] },
      .includes { target := "Node", mixin := "Mixed" },
      .mixin { name := "Mixed", isPartial := true, members := [longAttribute "mixedAdded"] },
      .dictionary { name := "Node", isPartial := true }] },
  { name := "second.idl"
    definitions :=
      [.interface { name := "Node", members := [longAttribute "own"] },
      .mixin { name := "Mixed", members := [longAttribute "mixed"] }] }]

theorem declareAndMerge_scattered :
    (answer? (declareAndMerge scattered { settings := {} })).map
      (fun r => (r.1.errors, r.2.errors,
        (r.2.table.interface? ⟨0⟩).map fun d => d.members.attributes.map (·.idl))) =
      some (0, 1, some ["own", "added", "mixed", "mixedAdded"]) := by
  decide +kernel

theorem mergeFragments_complete_scattered :
    ∃ extracted merged, scattered.forM declareDocument { settings := {} } = .ok () extracted ∧
      mergeFragments extracted = .ok () merged ∧ merged.errors = extracted.errors + 1 ∧
      merged.table.slots = extracted.table.slots.map (fun slot => { slot with
        entity := (Fragments.ofDefinitions {} (located scattered)).complete extracted.table
          slot.entity }) := by
  obtain ⟨⟨extracted, merged⟩, _, hrun, hresult⟩ := ok_of_answer? declareAndMerge_scattered
  obtain ⟨hextract, hmerge⟩ := declareAndMerge_ok hrun
  obtain ⟨hextracted, hmerged⟩ := Prod.mk.inj hresult
  obtain ⟨hstate, _⟩ := mergeFragments_complete hextract hmerge
  refine ⟨extracted, merged, hextract, hmerge, ?_, congrArg (fun c => c.table.slots) hstate⟩
  dsimp only at hextracted hmerged
  rw [hextracted, (Prod.mk.inj hmerged).1]

/-- A fragment of an interface as it is written, whether it is refused or not. -/
def writtenFragment? (settings : Settings) : String × Definition → Option Interface
  | (file, .interface d) =>
      if d.isPartial then some (Compilation.interfaceOf file (settings.packageOf file) d).1
      else none
  | _ => none

/-- The definitions `interface Node {};` and
`partial callback interface Node { attribute long first; };`. -/
def refused : Document :=
  { name := "node.idl"
    definitions :=
      [.interface { name := "Node" },
      .interface
        { name := "Node"
          isPartial := true
          callback := true
          members := [longAttribute "first"] }] }

theorem declareAndMerge_refused :
    (answer? (declareAndMerge [refused] { settings := {} })).map (fun r =>
      ((r.1.table.interface? ⟨0⟩).map fun d =>
          (d.identity.idl, d.members.attributes.map (·.idl)),
        (r.2.table.interface? ⟨0⟩).map fun d => d.members.attributes.map (·.idl))) =
      some (some ("Node", []), some []) := by
  decide +kernel

/-- A fragment that is refused when it is read adds nothing. -/
theorem exists_fragment_not_merged :
    ∃ (documents : List Document) (settings : Settings) (extracted merged : Compilation)
      (x : EntityId) (d d' : Interface),
        documents.forM declareDocument { settings } = .ok () extracted ∧
          mergeFragments extracted = .ok () merged ∧
          extracted.table.entity? x = some (.interface d) ∧
          merged.table.entity? x = some (.interface d') ∧
          (located documents).filterMap inclusion? = [] ∧
          d'.members.attributes ≠ d.members.attributes ++
            (((located documents).filterMap (writtenFragment? settings)).filter
              (·.identity.idl == d.identity.idl)).flatMap (·.members.attributes) := by
  obtain ⟨⟨extracted, merged⟩, _, hrun, hresult⟩ := ok_of_answer? declareAndMerge_refused
  obtain ⟨hextract, hmerge⟩ := declareAndMerge_ok hrun
  obtain ⟨hextracted, hmerged⟩ := Prod.mk.inj hresult
  obtain ⟨d, hd, hpair⟩ := Option.map_eq_some_iff.mp hextracted
  obtain ⟨hname, hnames⟩ := Prod.mk.inj hpair
  obtain ⟨d', hd', hnames'⟩ := Option.map_eq_some_iff.mp hmerged
  refine ⟨[refused], {}, extracted, merged, ⟨0⟩, d, d', hextract, hmerge,
    SymbolTable.interface?_eq_some.mp hd, SymbolTable.interface?_eq_some.mp hd', rfl, fun h => ?_⟩
  rw [hname, List.map_eq_nil_iff.mp hnames, List.map_eq_nil_iff.mp hnames'] at h
  have hlength := congrArg List.length h
  revert hlength
  decide +kernel

end IdlModel
