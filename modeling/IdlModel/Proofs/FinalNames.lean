import Mathlib.Data.Nat.Find
import Mathlib.Data.Set.Finite.Basic
import IdlModel.Proofs.StageRuns

/-!
# Final method names

The names that methods end up with, read off the line of ancestors.

*Reference.*  `finalNames` goes through a line of interfaces from the root down and
through the methods of each, the instance methods first.  It knows no handles, no
table and no counters that are kept for later: the names that are visible and the last
number appended to each are all it carries.

*Counters.*  The counters of an interface that is done track the names visible behind
it, so a rename finds the number that the reference finds.

*Lineages.*  An interface that is not done has the methods it started with.  One that
is done got its names from its own line only, whichever interface was named before it
or asked for it.
-/

namespace IdlModel

open NameCounters (numbered numbered_injective)
open Syntax (Document)

/-! ## The reference -/

/-- The names visible at a point in a line of interfaces, and the last number appended
to each. -/
structure VisibleNames where
  /-- The names that are visible. -/
  names : List String := []
  /-- The last number appended to a name, 1 if there is none. -/
  last : String → Nat := fun _ => 1

namespace VisibleNames

variable {v : VisibleNames} {name : String}

/-- Some greater number makes a name that is not yet visible. -/
theorem exists_number (v : VisibleNames) (name : String) :
    ∃ n, v.last name < n ∧ numbered name n ∉ v.names := by
  have hinjective : Function.Injective fun i => numbered name (v.last name + 1 + i) :=
    fun _ _ h => Nat.add_left_cancel (numbered_injective h)
  have hinfinite := Set.infinite_range_of_injective hinjective
  obtain ⟨_, ⟨i, rfl⟩, hfree⟩ := hinfinite.exists_notMem_finset v.names.toFinset
  refine ⟨v.last name + 1 + i, ?_, fun hmem => hfree (List.mem_toFinset.mpr hmem)⟩
  exact Nat.lt_of_lt_of_le (Nat.lt_succ_self _) (Nat.le_add_right _ i)

/-- The least number that makes a name not yet visible. -/
def number (v : VisibleNames) (name : String) : Nat := Nat.find (v.exists_number name)

/-- The name that the next method gets, and what is visible behind it. -/
def add (v : VisibleNames) (name : String) : String × VisibleNames :=
  if name ∈ v.names then
    let n := v.number name
    (numbered name n,
      { names := numbered name n :: v.names, last := Function.update v.last name n })
  else (name, { v with names := name :: v.names })

theorem number_spec (v : VisibleNames) (name : String) :
    v.last name < v.number name ∧ numbered name (v.number name) ∉ v.names :=
  Nat.find_spec (v.exists_number name)

theorem add_of_mem (h : name ∈ v.names) :
    v.add name = (numbered name (v.number name),
      { names := numbered name (v.number name) :: v.names
        last := Function.update v.last name (v.number name) }) := if_pos h

theorem add_of_not_mem (h : name ∉ v.names) :
    v.add name = (name, { v with names := name :: v.names }) := if_neg h

/-- The names that several methods get in order. -/
def addAll : VisibleNames → List String → List String × VisibleNames
  | v, [] => ([], v)
  | v, name :: rest =>
      let (name, v) := v.add name
      let (rest, v) := v.addAll rest
      (name :: rest, v)

end VisibleNames

/-- The names of the instance methods and of the static methods of an interface. -/
structure MethodNames where
  /-- The names of the instance methods. -/
  methods : List String := []
  /-- The names of the static methods. -/
  statics : List String := []
deriving Repr, DecidableEq

namespace VisibleNames

/-- The names that the methods of an interface get, the instance methods first. -/
def addInterface (v : VisibleNames) (m : MethodNames) : MethodNames × VisibleNames :=
  let (methods, v) := v.addAll m.methods
  let (statics, v) := v.addAll m.statics
  ({ methods, statics }, v)

/-- What is visible behind a line of interfaces. -/
def behind (v : VisibleNames) (line : List MethodNames) : VisibleNames :=
  line.foldl (fun v m => (v.addInterface m).2) v

/-- The names that the methods of a line of interfaces get, the root first. -/
def finalNames : VisibleNames → List MethodNames → List MethodNames
  | _, [] => []
  | v, m :: line => (v.addInterface m).1 :: finalNames (v.addInterface m).2 line

/-- The last interface of a line gets its names behind all others. -/
theorem finalNames_append (v : VisibleNames) (line : List MethodNames) (m : MethodNames) :
    v.finalNames (line ++ [m]) = v.finalNames line ++ [((v.behind line).addInterface m).1] := by
  induction line generalizing v with
  | nil => rfl
  | cons first line ih => simp only [List.cons_append, finalNames, ih, behind, List.foldl_cons]

theorem behind_append (v : VisibleNames) (line : List MethodNames) (m : MethodNames) :
    v.behind (line ++ [m]) = ((v.behind line).addInterface m).2 := by
  rw [behind, behind, List.foldl_append]
  rfl

end VisibleNames

/-! ## Counters -/

namespace NameCounters

variable {names : NameCounters} {v : VisibleNames} {name : String}

theorem le_firstFree (names : NameCounters) (name : String) (fuel n : Nat) :
    n ≤ names.firstFree name fuel n := by
  induction fuel generalizing n with
  | zero => exact Nat.le_refl n
  | succ fuel ih =>
    unfold firstFree
    split
    · exact Nat.le_of_succ_le (ih (n + 1))
    · exact Nat.le_refl n

/-- The search passes numbers of visible names only. -/
theorem mem_keys_of_lt_firstFree {fuel n i : Nat} (hi : n ≤ i)
    (h : i < names.firstFree name fuel n) : numbered name i ∈ names.keys := by
  induction fuel generalizing n with
  | zero => exact absurd h (Nat.not_lt.mpr hi)
  | succ fuel ih =>
    unfold firstFree at h
    split at h
    next hn =>
      rcases Nat.eq_or_lt_of_le hi with rfl | hi
      · exact (Register.contains_iff _ _).mp hn
      · exact ih hi h
    next => exact absurd h (Nat.not_lt.mpr hi)

/-- Counters that say which names are visible and which number each got last. -/
structure Tracks (names : NameCounters) (v : VisibleNames) : Prop where
  visible : ∀ k, k ∈ names.keys ↔ k ∈ v.names
  last : ∀ k n, names.find? k = some n → v.last k = n
  fresh : ∀ k, k ∉ v.names → v.last k = 1

namespace Tracks

theorem empty : Tracks Register.empty {} where
  visible _ := Iff.rfl
  last _ _ h := nomatch h
  fresh _ _ := rfl

/-- Counters find the number that the reference finds. -/
theorem firstFree_eq (h : names.Tracks v) {last : Nat} (hlast : names.find? name = some last) :
    names.firstFree name (names.size + 1) (last + 1) = v.number name := by
  have hv := h.last name last hlast
  refine ((Nat.find_eq_iff (v.exists_number name)).mpr ⟨⟨?_, ?_⟩, fun i hi hfree => ?_⟩).symm
  · rw [hv]
    exact Nat.lt_of_succ_le (names.le_firstFree name _ _)
  · rw [← h.visible]
    exact names.firstFree_fresh name _
  · rw [hv] at hfree
    exact hfree.2 ((h.visible _).mp (mem_keys_of_lt_firstFree hfree.1 hi))

/-- A name that becomes visible has no number yet. -/
theorem put_new (h : names.Tracks v) (hnew : name ∉ v.names) :
    Tracks (names.put name 1) { v with names := name :: v.names } where
  visible k := by rw [Register.mem_keys_put, List.mem_cons, h.visible]
  last k n hk := by
    rw [Register.find?_put] at hk
    split at hk
    next heq =>
      cases hk
      rw [heq]
      exact h.fresh name hnew
    next => exact h.last k n hk
  fresh k hk := h.fresh k fun hmem => hk (List.mem_cons_of_mem name hmem)

/-- A number is appended to a visible name. -/
theorem put_number (h : names.Tracks v) (hmem : name ∈ v.names) (n : Nat) :
    Tracks (names.put name n) { v with last := Function.update v.last name n } where
  visible k := by
    rw [Register.mem_keys_put, h.visible]
    exact or_iff_right_of_imp fun heq => heq ▸ hmem
  last k m hk := by
    rw [Register.find?_put] at hk
    split at hk
    next heq =>
      cases hk
      rw [heq]
      exact Function.update_self name n v.last
    next hne => exact (Function.update_of_ne hne n v.last).trans (h.last k m hk)
  fresh k hk := by
    have hne : k ≠ name := fun heq => hk (heq ▸ hmem)
    exact (Function.update_of_ne hne n v.last).trans (h.fresh k hk)

/-- One rename does what the reference does. -/
theorem rename (h : names.Tracks v) (d : Method) :
    (names.rename d).1.name = (v.add d.name).1 ∧ (names.rename d).2.Tracks (v.add d.name).2 := by
  unfold NameCounters.rename
  cases hlast : names.find? d.name with
  | none =>
      have hnew : d.name ∉ v.names := by
        rw [← h.visible]
        exact (Register.find?_eq_none_iff _ _).mp hlast
      rw [VisibleNames.add_of_not_mem hnew]
      exact ⟨rfl, h.put_new hnew⟩
  | some last =>
      have hmem : d.name ∈ v.names := (h.visible _).mp (Register.mem_keys_of_find? hlast)
      rw [VisibleNames.add_of_mem hmem]
      simp only [h.firstFree_eq hlast]
      exact ⟨trivial, (h.put_number hmem _).put_new (v.number_spec d.name).2⟩

theorem renameAll (h : names.Tracks v) (ds : List Method) :
    (names.renameAll ds).1.map Method.name = (v.addAll (ds.map Method.name)).1 ∧
      (names.renameAll ds).2.Tracks (v.addAll (ds.map Method.name)).2 := by
  induction ds generalizing names v with
  | nil => exact ⟨rfl, h⟩
  | cons d ds ih =>
    obtain ⟨hname, hfirst⟩ := h.rename d
    obtain ⟨hnames, hrest⟩ := ih hfirst
    simp only [NameCounters.renameAll, List.map_cons, VisibleNames.addAll]
    exact ⟨by rw [hname, hnames], hrest⟩

end Tracks

end NameCounters

/-- The names of the methods of an interface, by kind. -/
def Members.namesByKind (m : Members) : MethodNames where
  methods := m.methods.map Method.name
  statics := m.staticMethods.map Method.name

theorem NameCounters.Tracks.renameMembers {names : NameCounters} {v : VisibleNames}
    (h : names.Tracks v) (m : Members) :
    (names.renameMembers m).1.namesByKind = (v.addInterface m.namesByKind).1 ∧
      (names.renameMembers m).2.Tracks (v.addInterface m.namesByKind).2 := by
  obtain ⟨hmethods, hbetween⟩ := h.renameAll m.methods
  obtain ⟨hstatics, hbehind⟩ := hbetween.renameAll m.staticMethods
  simp only [NameCounters.renameMembers, Members.namesByKind, VisibleNames.addInterface]
  exact ⟨by rw [hmethods, hstatics], hbehind⟩

/-! ## Lineages -/

namespace SymbolTable

variable {t t' : SymbolTable} {x p : EntityId} {l : List EntityId}

/-- The names of the methods of an interface by kind, and none of any other entity. -/
def namesByKind (t : SymbolTable) (x : EntityId) : MethodNames :=
  match t.entity? x with
  | some (.interface d) => d.members.namesByKind
  | _ => {}

theorem namesByKind_eq {d : Interface} (hd : t.entity? x = some (.interface d)) :
    t.namesByKind x = d.members.namesByKind := by
  rw [namesByKind, hd]

/-- The names visible behind the interfaces of a line, which is listed from the last one
up to the root. -/
def visibleBehind (t : SymbolTable) (l : List EntityId) : VisibleNames :=
  VisibleNames.behind {} (l.reverse.map t.namesByKind)

theorem visibleBehind_cons (t : SymbolTable) (x : EntityId) (l : List EntityId) :
    t.visibleBehind (x :: l) = ((t.visibleBehind l).addInterface (t.namesByKind x)).2 := by
  rw [visibleBehind, List.reverse_cons, List.map_append, List.map_cons, List.map_nil,
    VisibleNames.behind_append, visibleBehind]

/-- If each interface of a line gets its names behind those above it, the line gets the
names of the reference. -/
theorem Lineage.finalNames_eq (hl : t.Lineage x l)
    (h : ∀ y l', t.Lineage y l' → y ∈ x :: l →
      t'.namesByKind y = ((t.visibleBehind l').addInterface (t.namesByKind y)).1) :
    (x :: l).reverse.map t'.namesByKind =
      VisibleNames.finalNames {} ((x :: l).reverse.map t.namesByKind) := by
  induction hl with
  | @root x hroot =>
      have hx := h x [] (.root hroot) List.mem_cons_self
      simp only [List.reverse_singleton, List.map_singleton, hx]
      rfl
  | @step x p l hparent rest ih =>
      have hx := h x (p :: l) (.step hparent rest) List.mem_cons_self
      have hrest := ih fun y l' hy hmem => h y l' hy (List.mem_cons_of_mem x hmem)
      rw [List.reverse_cons, List.map_append, List.map_append, List.map_singleton,
        List.map_singleton, VisibleNames.finalNames_append, hrest, hx, visibleBehind]

end SymbolTable

namespace MethodNaming

variable {t : SymbolTable} {s : MethodNaming} {x : EntityId} {l : List EntityId}

/-- An interface is as it was until it is done, and then has the names that it gets
behind its ancestors. -/
structure FollowsLines (t : SymbolTable) (s : MethodNaming) : Prop where
  waiting : ∀ x, x ∉ s.done.keys → s.table.entity? x = t.entity? x
  done : ∀ x names, s.done.find? x = some names → ∃ l, t.Lineage x l ∧
    names.Tracks (t.visibleBehind (x :: l)) ∧
    s.table.namesByKind x = ((t.visibleBehind l).addInterface (t.namesByKind x)).1

theorem FollowsLines.start (t : SymbolTable) : FollowsLines t { table := t } where
  waiting _ _ := rfl
  done _ _ h := nomatch h

/-- The step: an interface is named behind its ancestors. -/
theorem FollowsLines.nameOwn (h : FollowsLines t s) {d : Interface}
    (hd : t.entity? x = some (.interface d)) (hx : x ∉ s.done.keys) (hl : t.Lineage x l)
    {inherited : NameCounters} (htracks : inherited.Tracks (t.visibleBehind l)) :
    FollowsLines t (nameOwn x d inherited s).2 := by
  obtain ⟨hnames, hbehind⟩ := htracks.renameMembers d.members
  rw [← SymbolTable.namesByKind_eq hd] at hnames hbehind
  have hds := (h.waiting x hx).trans hd
  have hself : (MethodNaming.nameOwn x d inherited s).2.table.entity? x =
      some (.interface { d with members := (inherited.renameMembers d.members).1 }) := by
    refine (congrArg (·.entity? x) (SymbolTable.modify_eq_set hds _)).trans ?_
    exact SymbolTable.entity?_set_self (SymbolTable.lt_of_entity? hds) _
  have hother : ∀ y, y ≠ x →
      (MethodNaming.nameOwn x d inherited s).2.table.entity? y = s.table.entity? y :=
    fun y hy => SymbolTable.entity?_modify_of_ne _ hy _
  constructor
  · intro y hy
    obtain ⟨hne, hy⟩ := not_or.mp (mt (Register.mem_keys_put ..).mpr hy)
    rw [hother y hne, h.waiting y hy]
  · intro y names hy
    rw [MethodNaming.nameOwn, Register.find?_put] at hy
    split at hy
    next heq =>
      subst heq
      cases hy
      refine ⟨l, hl, ?_, ?_⟩
      · rw [SymbolTable.visibleBehind_cons]
        exact hbehind
      · rw [SymbolTable.namesByKind_eq hself, hnames]
    next hne =>
      obtain ⟨l', hl', htracks', hnames'⟩ := h.done y names hy
      refine ⟨l', hl', htracks', ?_⟩
      rw [← hnames', SymbolTable.namesByKind, SymbolTable.namesByKind, hother y hne]

/-- The run: asking for an interface names it and its ancestors, each behind those
above it. -/
theorem FollowsLines.nameMethods (ht : t.Rooted) (hl : t.Lineage x l) {fuel : Nat}
    {below : List EntityId} (hfuel : l.length < fuel) (hbelow : ∀ y ∈ x :: l, y ∉ below)
    (hnaming : Naming t s) (h : FollowsLines t s) (hused : t.isInUse x = true)
    (hkind : t.kind? x = some .interface) :
    FollowsLines t (nameMethods fuel below x s).2 := by
  induction hl generalizing fuel below s with
  | @root x hroot =>
      obtain ⟨fuel, rfl⟩ := Nat.exists_eq_add_one_of_ne_zero (Nat.ne_of_gt hfuel)
      obtain ⟨d, hd⟩ := t.exists_interface x hkind
      cases hdone : s.done.find? x with
      | some names =>
          rw [MethodNaming.nameMethods, hdone]
          exact h
      | none =>
          have hx := (Register.find?_eq_none_iff _ _).mp hdone
          have hnone : d.parent = none := by rw [ht.parent_eq hused hd, hroot]; rfl
          have hds := (h.waiting x hx).trans hd
          rw [nameMethods_root hdone hds (hbelow x List.mem_cons_self) hnone]
          exact h.nameOwn hd hx (.root hroot) .empty
  | @step x p l hstep rest ih =>
      obtain ⟨fuel, rfl⟩ := Nat.exists_eq_add_one_of_ne_zero (Nat.ne_zero_of_lt hfuel)
      obtain ⟨d, hd⟩ := t.exists_interface x hkind
      have hl : t.Lineage x (p :: l) := .step hstep rest
      cases hdone : s.done.find? x with
      | some names =>
          rw [MethodNaming.nameMethods, hdone]
          exact h
      | none =>
          have hx := (Register.find?_eq_none_iff _ _).mp hdone
          have hp : d.parent = some (.entity .interface p) := by
            rw [ht.parent_eq hused hd, hstep]
            rfl
          have hds := (h.waiting x hx).trans hd
          rw [nameMethods_step hdone hds (hbelow x List.mem_cons_self) hp]
          obtain ⟨hpused, hpkind⟩ := ht.hasParent hused hkind hstep
          have hbelow' : ∀ y ∈ p :: l, y ∉ x :: below := by
            intro y hy hmem
            rcases List.mem_cons.mp hmem with rfl | hmem
            · exact hl.not_mem hy
            · exact hbelow y (List.mem_cons_of_mem x hy) hmem
          have hfuel' : l.length < fuel := Nat.lt_of_succ_lt_succ hfuel
          have hnamed := nameMethods_spec ht rest hfuel' hbelow' hnaming hpused hpkind
          have hrest := ih hfuel' hbelow' hnaming h hpused hpkind
          -- The counters that the parent answers with are those of its own line.
          obtain ⟨l', hl', htracks, -⟩ := hrest.done p _ hnamed.found
          obtain rfl := rest.unique hl'
          exact hrest.nameOwn hd (fun hmem => (hnamed.added x hmem).elim hx hl.not_mem) hl htracks

theorem FollowsLines.nameAll (ht : t.Rooted) {ids : List EntityId}
    (hids : ∀ x ∈ ids, t.isInUse x = true ∧ t.kind? x = some .interface) (hnaming : Naming t s)
    (h : FollowsLines t s) : FollowsLines t (nameAll ids s) := by
  induction ids generalizing s with
  | nil => exact h
  | cons x ids ih =>
    obtain ⟨⟨hused, hkind⟩, hids⟩ := List.forall_mem_cons.mp hids
    obtain ⟨l, hl⟩ := ht.exists_lineage hused hkind
    have hfuel : l.length < s.table.size + 1 := by
      rw [hnaming.size]
      exact Nat.lt_succ_of_le hl.length_le
    have hbelow : ∀ y ∈ x :: l, y ∉ ([] : List EntityId) := fun _ _ => List.not_mem_nil
    have hnamed := nameMethods_spec ht hl hfuel hbelow hnaming hused hkind
    exact ih hids hnamed.naming (h.nameMethods ht hl hfuel hbelow hnaming hused hkind)

end MethodNaming

/-! ## The stage -/

/-- Behind the stage the interfaces in use have the names of the reference. -/
theorem SymbolTable.Rooted.finalNames_eq {c c' : Compilation} {u : Unit} (ht : c.table.Rooted)
    (h : resolveMethodNames c = .ok u c') {x : EntityId} (hused : c.table.isInUse x = true)
    (hkind : c.table.kind? x = some .interface) :
    (x :: c.table.ancestors x).reverse.map c'.table.namesByKind =
      VisibleNames.finalNames {} ((x :: c.table.ancestors x).reverse.map c.table.namesByKind) := by
  have hids : ∀ x, x ∈ (c.table.idsOf .interface).filter c.table.isInUse ↔
      c.table.isInUse x = true ∧ c.table.kind? x = some .interface := by
    intro x
    rw [List.mem_filter, SymbolTable.mem_idsOf, SymbolTable.kind?_eq_some, and_comm]
  have hstart := MethodNaming.Naming.start c.table
  have hall := fun x => (hids x).mp
  obtain ⟨-, -, hdone⟩ := MethodNaming.nameAll_spec ht hall hstart
  have hlines := (MethodNaming.FollowsLines.start c.table).nameAll ht hall hstart
  obtain ⟨l, hl⟩ := ht.exists_lineage hused hkind
  rw [resolveMethodNames_ok h, hl.ancestors_eq]
  refine hl.finalNames_eq fun y l' hy hmem => ?_
  have hreached : Relation.ReflTransGen c.table.HasParent x y := by
    rcases List.mem_cons.mp hmem with rfl | hmem
    · exact .refl
    · rw [← hl.ancestors_eq] at hmem
      exact (SymbolTable.mem_ancestors_iff.mp hmem).to_reflTransGen
  have hkeys := hdone y ((hids y).mpr (ht.reachable hused hkind hreached))
  obtain ⟨names, hnames⟩ := Option.isSome_iff_exists.mp ((Register.contains_iff _ _).mpr hkeys)
  obtain ⟨l₀, hl₀, -, hfinal⟩ := hlines.done y names hnames
  rwa [hy.unique hl₀]

variable {documents : List Document} {settings : Settings} {linked : Compilation}

/-- Behind linking, with or without promises in place, the stage ends, and the methods of
every interface in use and of its ancestors have the names that the reference gives to
this line, in the order in which they are listed.  Nothing but names has changed. -/
theorem linked_methodNames_eq_finalNames {c : Compilation}
    (h : linkDocuments documents { settings } = .ok () linked)
    (hc : c = linked ∨ runStage instantiatePromises .promise linked = .ok () c) :
    ∃ named, resolveMethodNames c = .ok () named ∧ c.table.Renamed named.table ∧
      ∀ x, c.table.isInUse x = true → c.table.kind? x = some .interface →
        (x :: c.table.ancestors x).reverse.map named.table.namesByKind =
          VisibleNames.finalNames {}
            ((x :: c.table.ancestors x).reverse.map c.table.namesByKind) := by
  obtain ⟨hresolved, hclean⟩ := linkDocuments_resolved h
  have hready : c.table.Rooted ∧ c.Clean := by
    rcases hc with rfl | hpromise
    · exact ⟨hresolved.rooted, hclean⟩
    · obtain ⟨es, hprogress⟩ := progress_of_promise hresolved hpromise
      exact ⟨hprogress.rooted hresolved, (runStage_ok.mp hpromise).2⟩
  obtain ⟨named, hrun⟩ := resolveMethodNames_finishes hready.2
  exact ⟨named, hrun, (hready.1.methodsNamed hrun).renamed, fun x hused hkind =>
    hready.1.finalNames_eq hrun hused hkind⟩

/-- The definitions `interface Cat : Animal { void eat2(); static void eat(); };` and
`interface Animal { void eat(); void eat(long food); };`. -/
def animals : Document :=
  { name := "animals.idl"
    definitions :=
      [.interface
        { name := "Cat"
          inherits := some "Animal"
          members :=
            [.operation { name := some "eat2", returnType := .named "void" },
            .operation { name := some "eat", returnType := .named "void", isStatic := true }] },
      .interface
        { name := "Animal"
          members :=
            [.operation { name := some "eat", returnType := .named "void" },
            .operation
              { name := some "eat"
                returnType := .named "void"
                args := [{ name := "food", type := .named "long" }] }] }] }

theorem linked_methodNames_eq_finalNames_animals :
    ∃ linked named, linkDocuments [animals] { settings := {} } = .ok () linked ∧
      resolveMethodNames linked = .ok () named ∧ linked.table.Renamed named.table ∧
      named.table.namesByKind ⟨0⟩ = { methods := ["Eat22"], statics := ["Eat3"] } ∧
      ∀ x, linked.table.isInUse x = true → linked.table.kind? x = some .interface →
        (x :: linked.table.ancestors x).reverse.map named.table.namesByKind =
          VisibleNames.finalNames {}
            ((x :: linked.table.ancestors x).reverse.map linked.table.namesByKind) := by
  have hnames : (answer? ((linkDocuments [animals] >>= fun _ => resolveMethodNames >>= fun _ => get)
      { settings := {} })).map (fun c => c.table.namesByKind ⟨0⟩) =
      some { methods := ["Eat22"], statics := ["Eat3"] } := by decide +kernel
  obtain ⟨_, _, hruns, hnames⟩ := ok_of_answer? hnames
  obtain ⟨⟨⟩, linked, hlink, hruns⟩ := bind_ok.mp hruns
  obtain ⟨⟨⟩, named, hname, hget⟩ := bind_ok.mp hruns
  obtain ⟨rfl, rfl⟩ := get_ok.mp hget
  obtain ⟨_, hname', hrenamed, hfinal⟩ := linked_methodNames_eq_finalNames hlink (.inl rfl)
  obtain ⟨-, rfl⟩ := EStateM.Result.ok.inj (hname'.symm.trans hname)
  exact ⟨linked, _, hlink, hname, hrenamed, hnames, hfinal⟩

end IdlModel
