import IdlModel.Proofs.LinkGrowth

/-!
# Runs of the linker

What a run of the linker without errors does.

*Growth.*  No action of the linker takes an error back.  So if a run ends clean,
all states in it are clean, and every branch that reports an error is out of the
question.

*Types.*  Resolving a type gives what it stands for, with its handles in use.
The budget for typedefs suffices, for the typedefs that are open are different.

*Visits.*  A visit leads to a state ahead, in which its entity is in use.  The
budget for visits suffices, for each visit that does anything leaves one entity
less that is not in use.
-/

namespace IdlModel

namespace Linker

/-! ## Parents -/

section Run

variable {α β : Type}

theorem run_bind (x : LinkM α) (f : α → LinkM β) (l : Linker) :
    (x >>= f).run l = (f (x.run l).1).run (x.run l).2 := rfl

theorem run_get_bind (f : Linker → LinkM β) (l : Linker) : (get >>= f).run l = (f l).run l := rfl

/-- The first part of a clean run is clean. -/
theorem Clean.first {x : LinkM α} {f : α → LinkM β} {l : Linker} (hf : ∀ a, Grows errors (f a))
    (h : ((x >>= f).run l).2.Clean) : (x.run l).2.Clean :=
  h.of_le (hf _ _)

end Run

variable {l : Linker} {id : EntityId} {e : Entity}

theorem resolveParent_clean {name : String}
    (h : ((resolveParent e (.unlinked name)).run l).2.Clean) :
    ∃ y, l.table.lookup? name = some (.type y) ∧ l.table.kind? y = some e.kind ∧
      (resolveParent e (.unlinked name)).run l = (some y, l) := by
  unfold resolveParent at h ⊢
  rw [run_get_bind] at h ⊢
  cases hsymbol : l.table.lookup? name with
  | none =>
      simp only [hsymbol] at h
      exact absurd (h.first fun _ => .pure _) (not_clean_reportUnresolved _ _ _)
  | some symbol =>
      have hwrong : (wrongParent e.kind e.key name).severity = .error := by
        unfold wrongParent
        split <;> rfl
      cases symbol with
      | type y =>
          by_cases hkind : l.table.kind? y = some e.kind
          · exact ⟨y, rfl, hkind, by simp only [hsymbol, if_pos hkind]; rfl⟩
          · simp only [hsymbol, if_neg hkind] at h
            exact absurd (h.first fun _ => .pure _) (not_clean_report hwrong _ _)
      | mixin _ =>
          simp only [hsymbol] at h
          exact absurd (h.first fun _ => .pure _) (not_clean_report hwrong _ _)
      | typedef _ =>
          simp only [hsymbol] at h
          exact absurd (h.first fun _ => .pure _) (not_clean_report hwrong _ _)

theorem cutCycle_clean {y : EntityId} (h : ((cutCycle e id (some y)).run l).2.Clean) :
    y ≠ id ∧ id ∉ l.table.ancestors y ∧ (cutCycle e id (some y)).run l = (some y, l) := by
  unfold cutCycle at h ⊢
  dsimp only at h ⊢
  rw [run_get_bind] at h ⊢
  by_cases hmet : (y = id || (l.table.ancestors y).contains id) = true
  · rw [if_pos hmet] at h
    exact absurd (h.first fun _ => .pure _) (not_clean_report rfl _ _)
  · rw [if_neg hmet]
    simp only [Bool.or_eq_true, decide_eq_true_eq, List.contains_iff_mem, not_or] at hmet
    exact ⟨hmet.1, hmet.2, rfl⟩

/-- Without errors a parent is found, it is on no cycle, and the entity gets its
place. -/
theorem linkParent_clean (he : l.table.entity? id = some e)
    (hname : ∀ p, e.parent? = some p → ∃ name, p = .unlinked name)
    (h : ((linkParent id).run l).2.Clean) :
    (linkParent id).run l =
        (l.table.parentOf? id, l.withTable (l.table.set id (l.table.placed id e))) ∧
      ¬ l.table.OnCycle id ∧ ∀ p, e.parent? = some p → ∃ y, l.table.HasParent id y := by
  have hparentOf := SymbolTable.parentOf?_eq he
  unfold linkParent at h ⊢
  rw [run_get_bind] at h ⊢
  simp only [he] at h ⊢
  cases hp : e.parent? with
  | none =>
      rw [hp, Option.bind_none] at hparentOf
      refine ⟨?_, ?_, nofun⟩
      · rw [hparentOf, SymbolTable.placed_of_no_parent hparentOf, SymbolTable.set_self he]
        rfl
      · intro hcycle
        obtain ⟨y, hy⟩ := hcycle.exists_hasParent
        rw [SymbolTable.HasParent, hparentOf] at hy
        cases hy
  | some p =>
      obtain ⟨name, rfl⟩ := hname p hp
      simp only [hp] at h ⊢
      have hrest : ∀ p, Grows errors (do
          modify fun l =>
            let inherited := (Option.map l.table.lineageFields p).getD []
            l.withTable (l.table.modify id fun e => (e.setParent p).setInherited inherited)
          return p : LinkM (Option EntityId)) := fun p =>
        Grows.bind (Grows.update fun l => Nat.le_refl _) fun _ => .pure _
      obtain ⟨y, hlookup, hkind, hresolve⟩ := resolveParent_clean
        (h.first fun p => (grows_cutCycle e id p).bind hrest)
      rw [run_bind, hresolve] at h ⊢
      obtain ⟨hne, hancestors, hcut⟩ := cutCycle_clean (h.first hrest)
      rw [run_bind, hcut]
      have hparent : l.table.parentOf? id = some y := by
        rw [hparentOf, hp]
        simp [SymbolTable.lookupType?, hlookup, hkind]
      have hplace : l.table.modify id (fun e => (e.setParent (some y)).setInherited
          (l.table.lineageFields y)) = l.table.set id (l.table.placed id e) := by
        rw [SymbolTable.modify_eq_set he, SymbolTable.placed, hparent]
      refine ⟨?_, ?_, fun _ _ => ⟨y, hparent⟩⟩
      · rw [hparent, ← hplace]
        rfl
      · rw [SymbolTable.HasParent.onCycle_iff hparent, not_or]
        exact ⟨hne, hancestors⟩

/-! ## Types -/

section Types

variable (t₀ : SymbolTable) (Root : EntityId → Prop) (budget : Nat)

/-- What visits have to do, as long as at most `budget` entities are not in use. -/
def VisitsWell (visit : EntityId → LinkM Unit) : Prop :=
  ∀ (id : EntityId) (l : Linker), Linking t₀ Root l → l.table.unused ≤ budget →
    Reached t₀ Root id → ((visit id).run l).2.Clean →
      Linking t₀ Root ((visit id).run l).2 ∧ Ahead t₀ l ((visit id).run l).2 ∧
        (id.index < t₀.size → ((visit id).run l).2.table.isInUse id = true)

/-- A run of an action from a state gives what a type stands for, with its
handles in use. -/
def Resolves (t : TypeRef) (action : LinkM TypeRef) (l : Linker) : Prop :=
  Linking t₀ Root l → l.table.unused ≤ budget → (action.run l).2.Clean →
    Linking t₀ Root (action.run l).2 ∧ Ahead t₀ l (action.run l).2 ∧
      Expands t₀ t (action.run l).1 ∧ (action.run l).2.table.Linked (action.run l).1

/-- A type whose handles are sound and whose entities are reached. -/
structure Resolvable (t : TypeRef) : Prop where
  sound : t₀.Sound t
  reached : ∀ y, Mentions t₀ t y → Reached t₀ Root y

/-- The typedefs that are open: different names of typedefs. -/
structure Opened (opened : List String) : Prop where
  nodup : opened.Nodup
  typedef : ∀ name ∈ opened, ∃ i, t₀.lookup? name = some (.typedef i)

variable {t₀ Root budget} {t u : TypeRef} {l : Linker}

theorem Resolvable.part (h : Resolvable t₀ Root t) (hu : u ∈ t.parts) : Resolvable t₀ Root u :=
  ⟨h.sound.part hu, fun y hy => h.reached y (.part hu hy)⟩

/-- The body of a typedef is resolvable if what it mentions is reached. -/
theorem Resolvable.body (ht₀ : t₀.Declared) {i : Nat} {d₀ : Typedef}
    (hd₀ : t₀.typedefs[i]? = some d₀) (hreached : ∀ y, Mentions t₀ d₀.type y → Reached t₀ Root y)
    (hunfolds : Unfolds t₀ d₀.type u) : Resolvable t₀ Root u :=
  ⟨hunfolds.sound ht₀ (SymbolTable.sound_of_written (ht₀.bodies i d₀ hd₀)),
    fun y hy => hreached y (hunfolds.mentions hy)⟩

/-- There are no more open typedefs than names. -/
theorem Opened.length_le {opened : List String} (h : Opened t₀ opened) :
    opened.length ≤ t₀.names.size := by
  have hsubset : opened ⊆ t₀.names.keys := by
    intro name hname
    obtain ⟨i, hi⟩ := h.typedef name hname
    exact Register.mem_keys_of_find? hi
  calc opened.length ≤ t₀.names.keys.length :=
        (List.subperm_of_subset h.nodup hsubset).length_le
    _ = t₀.names.size := by simp [Register.keys, Register.size]

theorem Opened.cons {opened : List String} (h : Opened t₀ opened) {name : String} {i : Nat}
    (hlookup : t₀.lookup? name = some (.typedef i)) (hname : ¬ opened.contains name = true) :
    Opened t₀ (name :: opened) :=
  ⟨List.nodup_cons.mpr ⟨fun hmem => hname (List.contains_iff_mem.mpr hmem), h.nodup⟩,
    List.forall_mem_cons.mpr ⟨⟨i, hlookup⟩, h.typedef⟩⟩

/-- A state ahead has no more that is not in use. -/
theorem Ahead.unused_le {l l' : Linker} (h : Ahead t₀ l l') (hl : Linking t₀ Root l)
    (hl' : Linking t₀ Root l') : l'.table.unused ≤ l.table.unused :=
  SymbolTable.unused_le_unused (hl'.size.trans hl.size.symm) h.used

theorem resolveName_spec {visit : EntityId → LinkM Unit} (hvisit : VisitsWell t₀ Root budget visit)
    {at_ : Location} {expand : String → Nat → Typedef → LinkM TypeRef} {name : String}
    (hreached : ∀ y, Mentions t₀ (.unlinked name) y → Reached t₀ Root y)
    (hexpand : ∀ i d₀ d, t₀.lookup? name = some (.typedef i) → t₀.typedefs[i]? = some d₀ →
      Unfolds t₀ d₀.type d.type → ∀ l, Resolves t₀ Root budget d₀.type (expand name i d) l)
    (ht₀ : t₀.Declared) (l : Linker) :
    Resolves t₀ Root budget (.unlinked name) (resolveName visit at_ expand name) l := by
  intro hl hbudget hclean
  unfold resolveName at hclean ⊢
  rw [run_get_bind] at hclean ⊢
  have hlookup := hl.lookup?_eq name
  cases hsymbol : l.table.lookup? name with
  | none =>
      simp only [hsymbol] at hclean
      exact absurd (hclean.first fun _ => .pure _) (not_clean_reportUnresolved _ _ _)
  | some symbol =>
      rw [hsymbol] at hlookup
      cases symbol with
      | mixin _ =>
          simp only [hsymbol] at hclean
          exact absurd (hclean.first fun _ => .pure _) (not_clean_reportUnresolved _ _ _)
      | type id =>
          simp only [hsymbol] at hclean ⊢
          have hvisited : ((visit id).run l).2.Clean := by
            refine hclean.first fun _ => Grows.get.bind fun l => ?_
            split
            · exact .pure _
            · exact .pure _
          obtain ⟨e₀, he₀, _⟩ := (ht₀.types name id).mp hlookup.symm
          obtain ⟨hlinking, hahead, hused⟩ :=
            hvisit id l hl hbudget (hreached id (.type hlookup.symm)) hvisited
          rw [run_bind, run_get_bind]
          obtain ⟨e, he, hkind, _⟩ := hlinking.entity he₀
          simp only [he]
          have hkind₀ : t₀.kind? id = some e.kind := by
            rw [SymbolTable.kind?, he₀, Option.map_some, hkind]
          refine ⟨hlinking, hahead, .type hlookup.symm hkind₀, ?_⟩
          refine TypeRef.everywhere_iff.mpr ⟨⟨?_, ?_⟩, fun _ hu => absurd hu List.not_mem_nil⟩
          · exact (hlinking.kind?_eq id).trans hkind₀
          · exact hused (SymbolTable.lt_of_entity? he₀)
      | typedef i =>
          simp only [hsymbol] at hclean ⊢
          obtain ⟨d₀, hd₀, _⟩ := (ht₀.typedefs name i).mp hlookup.symm
          obtain ⟨d, hd, hunfolds⟩ := hl.bodies i d₀ hd₀
          simp only [hd] at hclean ⊢
          obtain ⟨hlinking, hahead, hexpands, hlinked⟩ :=
            hexpand i d₀ d hlookup.symm hd₀ hunfolds l hl hbudget hclean
          exact ⟨hlinking, hahead, .typedef hlookup.symm hd₀ hexpands, hlinked⟩

theorem memoize_spec {i : Nat} {d₀ : Typedef} (hd₀ : t₀.typedefs[i]? = some d₀)
    (hl : Linking t₀ Root l) (hu : Expands t₀ d₀.type u) :
    ((memoize i u).run l).1 = u ∧ Linking t₀ Root ((memoize i u).run l).2 ∧
      Ahead t₀ l ((memoize i u).run l).2 ∧
        ∀ ref, l.table.Linked ref → ((memoize i u).run l).2.table.Linked ref := by
  unfold memoize
  by_cases hname : u.hasName = true
  · rw [if_pos hname]
    exact ⟨rfl, hl, .refl l, fun _ h => h⟩
  · rw [if_neg hname]
    refine ⟨rfl, hl.memo hd₀ hu, ⟨fun _ h => h, fun _ _ => rfl, fun x hx hx' => ?_⟩, fun _ h => h⟩
    cases hx.symm.trans hx'

/-- A step of a walk is known if it is known for runs without errors. -/
theorem Resolves.step {action : LinkM TypeRef} (hgrows : Grows errors action)
    (h : l.Clean → Linking t₀ Root l ∧ l.table.unused ≤ budget)
    (hspec : l.Clean → Resolves t₀ Root budget t action l) :
    ((action.run l).2.Clean →
        Linking t₀ Root (action.run l).2 ∧ (action.run l).2.table.unused ≤ budget) ∧
      (l.errors ≤ (action.run l).2.errors ∧
        ((action.run l).2.Clean → Ahead t₀ l (action.run l).2)) ∧
      ((action.run l).2.Clean → Expands t₀ t (action.run l).1 ∧
        (action.run l).2.table.Linked (action.run l).1) := by
  have hall : (action.run l).2.Clean → l.table.unused ≤ budget ∧ Linking t₀ Root l ∧
      Linking t₀ Root (action.run l).2 ∧ Ahead t₀ l (action.run l).2 ∧
        Expands t₀ t (action.run l).1 ∧ (action.run l).2.table.Linked (action.run l).1 := by
    intro hclean
    have hl := hclean.of_le (hgrows l)
    obtain ⟨hlinking, hbudget⟩ := h hl
    exact ⟨hbudget, hlinking, hspec hl hlinking hbudget hclean⟩
  refine ⟨fun hclean => ?_, ⟨hgrows l, fun hclean => ?_⟩, fun hclean => ?_⟩
  · obtain ⟨hbudget, hl, hl', hahead, _⟩ := hall hclean
    exact ⟨hl', Nat.le_trans (hahead.unused_le hl hl') hbudget⟩
  · exact (hall hclean).2.2.2.1
  · exact (hall hclean).2.2.2.2

theorem checkGeneric_clean {at_ : Location} (h : ((checkGeneric at_ t).run l).2.Clean) :
    ((checkGeneric at_ t).run l).2 = l ∧
      ∀ name args, t = .parametrized name args → name ∈ knownGenerics := by
  unfold checkGeneric at h ⊢
  split at h
  next name args =>
    by_cases hknown : knownGenerics.contains name = true
    · refine ⟨by rw [if_pos hknown]; rfl, fun _ _ heq => ?_⟩
      cases heq
      exact List.contains_iff_mem.mp hknown
    · rw [if_neg hknown] at h
      exact absurd h (not_clean_report rfl _ _)
  next hother => exact ⟨rfl, fun name args heq => absurd heq (hother name args)⟩

/-- A reference that is neither a name nor a handle stays as it is. -/
theorem resolvePart_eq_pure {visit : EntityId → LinkM Unit} {onName : String → LinkM TypeRef}
    (hname : t.isName = false) (hentity : t.entity? = none) :
    resolvePart visit onName t = pure t := by
  cases t with
  | entity _ _ => cases hentity
  | unlinked _ => cases hname
  | _ => rfl

theorem resolvePart_spec {visit : EntityId → LinkM Unit} (hvisit : VisitsWell t₀ Root budget visit)
    {onName : String → LinkM TypeRef}
    (honName : ∀ name, t = .unlinked name → Resolves t₀ Root budget t (onName name) l)
    (ht : Resolvable t₀ Root t)
    (hgeneric : ∀ name args, t = .parametrized name args → name ∈ knownGenerics)
    {us : List TypeRef}
    (hus : List.Forall₂ (fun t u => Expands t₀ t u ∧ l.table.Linked u) t.parts us) :
    Resolves t₀ Root budget t (resolvePart visit onName (t.withParts us)) l := by
  have hsound := ht.sound.self
  have hother : t.isName = false → t.entity? = none → l.table.IsLinkedPart t →
      Resolves t₀ Root budget t (resolvePart visit onName (t.withParts us)) l := by
    intro hname hentity hpart hl hbudget hclean
    rw [resolvePart_eq_pure ((TypeRef.isName_withParts t us).trans hname)
      ((TypeRef.entity?_withParts t us).trans hentity)]
    refine ⟨hl, .refl l, .ofParts hname (hus.imp fun _ _ h => h.1), ?_⟩
    refine TypeRef.everywhere_withParts hus.length_eq.symm (hpart.withParts us) fun u hu => ?_
    obtain ⟨_, _, _, hlinked⟩ := forall₂_right hus u hu
    exact hlinked
  cases t with
  | entity kind id =>
      cases hus
      intro hl hbudget hclean
      obtain ⟨hlinking, hahead, hused⟩ := hvisit id l hl hbudget (ht.reached id .handle) hclean
      refine ⟨hlinking, hahead, .leaf rfl rfl, ?_⟩
      refine TypeRef.everywhere_iff.mpr ⟨⟨?_, ?_⟩, fun _ hu => absurd hu List.not_mem_nil⟩
      · exact (hlinking.kind?_eq id).trans hsound
      · obtain ⟨e₀, he₀, _⟩ := (t₀.kind?_eq_some id).mp hsound
        exact hused (SymbolTable.lt_of_entity? he₀)
  | unlinked name =>
      cases hus
      exact honName name rfl
  | placeholder _ => exact hsound.elim
  | parametrized name args => exact hother rfl rfl (hgeneric name args rfl)
  | _ => exact hother rfl rfl trivial

theorem resolve_of_expand {visit : EntityId → LinkM Unit} (hgrows : ∀ id, Grows errors (visit id))
    (hvisit : VisitsWell t₀ Root budget visit) (ht₀ : t₀.Declared) {at_ : Location}
    {expand : String → Nat → Typedef → LinkM TypeRef}
    (hexpandGrows : ∀ name i d, Grows errors (expand name i d))
    (hexpand : ∀ name i d₀ d, t₀.lookup? name = some (.typedef i) → t₀.typedefs[i]? = some d₀ →
      (∀ y, Mentions t₀ d₀.type y → Reached t₀ Root y) → Unfolds t₀ d₀.type d.type →
        ∀ l, Resolves t₀ Root budget d₀.type (expand name i d) l)
    (ht : Resolvable t₀ Root t) (l : Linker) :
    Resolves t₀ Root budget t
      (t.rebuildM (checkGeneric at_) (resolvePart visit (resolveName visit at_ expand))) l := by
  have rule : TypeRef.RebuildRule (checkGeneric at_)
      (resolvePart visit (resolveName visit at_ expand))
      (fun l => l.Clean → Linking t₀ Root l ∧ l.table.unused ≤ budget)
      (fun l l' => l.errors ≤ l'.errors ∧ (l'.Clean → Ahead t₀ l l'))
      (Resolvable t₀ Root)
      (fun t l => l.Clean → ∀ name args, t = .parametrized name args → name ∈ knownGenerics)
      (fun t u l => l.Clean → Expands t₀ t u ∧ l.table.Linked u) :=
    { refl := fun l _ => ⟨Nat.le_refl _, fun _ => .refl l⟩
      trans := fun h h' => ⟨Nat.le_trans h.1 h'.1, fun hclean =>
        (h.2 (hclean.of_le h'.1)).trans (h'.2 hclean)⟩
      pre_part := Resolvable.part
      entered_leads := fun h hentered hclean => hentered (hclean.of_le h.1)
      post_leads := fun h hpost hclean => by
        obtain ⟨hexpands, hlinked⟩ := hpost (hclean.of_le h.1)
        exact ⟨hexpands, (h.2 hclean).linked hlinked⟩
      enter := fun {t l} hl _ => by
        refine ⟨fun hclean => ?_, ⟨grows_checkGeneric at_ t l, fun hclean => ?_⟩, fun hclean => ?_⟩
        · have hsame := (checkGeneric_clean hclean).1
          rw [hsame] at hclean ⊢
          exact hl hclean
        · rw [(checkGeneric_clean hclean).1]
          exact .refl l
        · exact (checkGeneric_clean hclean).2
      leave := fun {t us l} hl ht hentered hus => by
        refine Resolves.step (grows_resolvePart hgrows (grows_resolveName hgrows at_ hexpandGrows) _)
          hl fun hclean => ?_
        refine resolvePart_spec hvisit (fun name heq => ?_) ht (hentered hclean)
          (hus.imp fun _ _ h => h hclean)
        subst heq
        refine resolveName_spec hvisit ht.reached (fun i d₀ d hlookup hd₀ => ?_) ht₀ l
        exact hexpand name i d₀ d hlookup hd₀ fun y hy => ht.reached y (.typedef hlookup hd₀ hy) }
  intro hl hbudget hclean
  obtain ⟨hinv, hleads, hpost⟩ := rule.run ht (s := l) fun _ => ⟨hl, hbudget⟩
  exact ⟨(hinv hclean).1, hleads.2 hclean, hpost hclean⟩

/-- Resolving a type gives what it stands for. -/
theorem resolve_spec {visit : EntityId → LinkM Unit} (hgrows : ∀ id, Grows errors (visit id))
    (hvisit : VisitsWell t₀ Root budget visit) (ht₀ : t₀.Declared) (at_ : Location) (fuel : Nat)
    {opened : List String} (hopened : Opened t₀ opened)
    (hfuel : t₀.names.size ≤ fuel + opened.length) (ht : Resolvable t₀ Root t) (l : Linker) :
    Resolves t₀ Root budget t (resolve visit at_ fuel opened t) l := by
  induction fuel generalizing opened t l with
  | zero =>
    -- Another open typedef would be one too many.
    rw [resolve]
    refine resolve_of_expand hgrows hvisit ht₀ (fun name _ d => ?_)
      (fun name i d₀ d hlookup _ _ _ l hl hbudget hclean => ?_) ht l
    · split
      · exact (grows_report _ _).bind fun _ => .pure _
      · exact .pure _
    · by_cases hmet : opened.contains name = true
      · rw [if_pos hmet] at hclean
        exact absurd (hclean.first fun _ => .pure _) (not_clean_report rfl _ _)
      · have hlength := (hopened.cons hlookup hmet).length_le
        rw [List.length_cons] at hlength
        omega
  | succ fuel ih =>
    rw [resolve]
    refine resolve_of_expand hgrows hvisit ht₀ (fun name _ d => ?_)
      (fun name i d₀ d hlookup hd₀ hreached hunfolds l hl hbudget hclean => ?_) ht l
    · split
      · exact (grows_report _ _).bind fun _ => .pure _
      · exact (grows_resolve hgrows at_ fuel _ _).bind fun _ => grows_memoize _ _
    · by_cases hmet : opened.contains name = true
      · rw [if_pos hmet] at hclean
        exact absurd (hclean.first fun _ => .pure _) (not_clean_report rfl _ _)
      · rw [if_neg hmet] at hclean ⊢
        have hbody : Resolvable t₀ Root d.type := .body ht₀ hd₀ hreached hunfolds
        obtain ⟨hlinking, hahead, hexpands, hlinked⟩ := ih (hopened.cons hlookup hmet)
          (by rw [List.length_cons]; omega) hbody l hl hbudget
          (hclean.first fun _ => grows_memoize _ _)
        obtain ⟨hresult, hlinking', hahead', hkeeps⟩ :=
          memoize_spec hd₀ hlinking (hunfolds.expands hexpands)
        rw [run_bind, hresult]
        exact ⟨hlinking', hahead.trans hahead', hunfolds.expands hexpands, hkeeps _ hlinked⟩

end Types

/-! ## Visits -/

section Visits

variable {t₀ : SymbolTable} {Root : EntityId → Prop} {budget : Nat} {l : Linker} {id : EntityId}

/-- A visit that is not due changes nothing and is not needed. -/
theorem isInUse_of_not_due (hl : Linking t₀ Root l) (hclean : l.Clean) (hdue : ¬ l.isDue id = true)
    (hlt : id.index < t₀.size) : l.table.isInUse id = true := by
  have hlt' : id.index < l.table.size := hl.size ▸ hlt
  simpa [isDue, hclean.not_isOverLimit, hlt'] using hdue

/-- What a visit has established when its entity has its place. -/
structure Entered (t₀ : SymbolTable) (Root : EntityId → Prop) (l : Linker) (id : EntityId)
    (e : Entity) (l' : Linker) : Prop where
  entity : t₀.entity? id = some e
  linking : Linking t₀ Root l'
  counted : l'.table.unused + 1 = l.table.unused
  used : ∀ x, l'.table.isInUse x = true ↔ x = id ∨ l.table.isInUse x = true
  placed : ∃ e', l'.table.entity? id = some e' ∧ e'.blank = (t₀.placed id e).blank
  others : ∀ x, x ≠ id → l'.table.entity? x = l.table.entity? x
  acyclic : ¬ t₀.OnCycle id
  parent : ∀ p, e.parent? = some p → ∃ y, t₀.HasParent id y

/-- An entity is taken into use and placed. -/
theorem enter_spec (ht₀ : t₀.Declared) (hl : Linking t₀ Root l) (hlt : id.index < l.table.size)
    (hfree : l.table.isInUse id = false) (hreached : Reached t₀ Root id)
    (hclean : ((linkParent id).run ((enter id).run l).2).2.Clean) :
    ((linkParent id).run ((enter id).run l).2).1 = t₀.parentOf? id ∧
      ∃ e, Entered t₀ Root l id e ((linkParent id).run ((enter id).run l).2).2 := by
  obtain ⟨e, he⟩ := SymbolTable.entity?_of_lt hlt
  have he₀ : t₀.entity? id = some e := by rw [← hl.unused id hfree, he]
  generalize hl₁ : ((enter id).run l).2 = l₁ at hclean ⊢
  have htable : l₁.table = l.table.mark id := by rw [← hl₁]; rfl
  have hvisits : l₁.visits = l.visits + 1 := by rw [← hl₁]; rfl
  have hparentOf : ∀ x, l₁.table.parentOf? x = t₀.parentOf? x := fun x => by
    rw [htable, SymbolTable.parentOf?_mark, hl.parentOf?_eq ht₀]
  obtain ⟨hrun, hacyclic, hparent⟩ := linkParent_clean (l := l₁)
    (by rw [htable, SymbolTable.entity?_mark, he]) (ht₀.entities id e he₀).parent hclean
  rw [hrun]
  refine ⟨hparentOf id, e, ?_⟩
  have hplaced : l₁.table.placed id e = l.table.placed id e := by
    rw [htable, SymbolTable.placed_mark]
  have hlinking : Linking t₀ Root (l₁.withTable (l₁.table.set id (l₁.table.placed id e))) :=
    hl.enter ht₀ hfree he hreached (by rw [hplaced, htable]; rfl) hvisits
  have hlt₁ : id.index < l₁.table.size := by rwa [htable, SymbolTable.size_mark]
  refine
    { entity := he₀
      linking := hlinking
      counted := ?_
      used := fun x => ?_
      placed := ⟨_, SymbolTable.entity?_set_self hlt₁ _, ?_⟩
      others := fun x hx => ?_
      acyclic := fun hcycle => hacyclic ((SymbolTable.onCycle_congr hparentOf).mpr hcycle)
      parent := fun p hp => ?_ }
  · have hbefore := hl.counted
    have hafter := hlinking.counted
    rw [visits_withTable, hvisits] at hafter
    show (l₁.withTable (l₁.table.set id (l₁.table.placed id e))).table.unused + 1 = _
    omega
  · rw [table_withTable, SymbolTable.isInUse_set, htable, SymbolTable.isInUse_mark hlt]
  · rw [hplaced]
    exact (hl.placed_rebuilt ht₀ id e).blank
  · rw [table_withTable, SymbolTable.entity?_set_of_ne _ hx, htable, SymbolTable.entity?_mark]
  · obtain ⟨y, hy⟩ := hparent p hp
    exact ⟨y, by rwa [SymbolTable.HasParent, hparentOf] at hy⟩

/-- An entity with linked types and its parent in use is done. -/
theorem Entered.done (ht₀ : t₀.Declared) {e : Entity} {l₂ l₄ : Linker}
    (h : Entered t₀ Root l id e l₂) {linked : Entity}
    (hlinked : l₄.table.entity? id = some linked)
    (hblank : linked.blank = (t₀.placed id e).blank)
    (htypes : ∀ ty ∈ linked.types, l₄.table.Linked ty.2)
    (hparent : ∀ y, t₀.HasParent id y → l₄.table.isInUse y = true) : Done t₀ l₄ id where
  types e' he' := by
    cases hlinked.symm.trans he'
    exact htypes
  parent e' p he' hp := by
    cases hlinked.symm.trans he'
    rw [Entity.parent?_eq_of_blank hblank] at hp
    have hkind : linked.kind = e.kind := by
      rw [Entity.kind_eq_of_blank hblank, SymbolTable.kind_placed]
    cases hy : t₀.parentOf? id with
    | none =>
        rw [SymbolTable.placed_of_no_parent hy] at hp
        obtain ⟨y, hy'⟩ := h.parent p hp
        cases hy.symm.trans hy'
    | some y =>
        rw [ht₀.parent?_placed h.entity hy] at hp
        exact ⟨y, by rw [hkind]; exact (Option.some.inj hp).symm, hy⟩
  used := hparent
  acyclic := h.acyclic

/-- What the types of an entity lead to when they are linked. -/
structure TypesLinked (t₀ : SymbolTable) (Root : EntityId → Prop) (l : Linker) (id : EntityId)
    (e : Entity) (l' : Linker) : Prop where
  linking : Linking t₀ Root l'
  entity : ∃ e', l'.table.entity? id = some e' ∧ e'.blank = e.blank ∧
    ∀ ty ∈ e'.types, l'.table.Linked ty.2
  used : ∀ x, l.table.isInUse x = true → l'.table.isInUse x = true
  kept : ∀ x, x ≠ id → l.table.isInUse x = true → l'.table.entity? x = l.table.entity? x
  done : ∀ x, l'.table.isInUse x = true → l.table.isInUse x = false → Done t₀ l' x

/-- The types of an entity are resolved on a copy, and visits start from them. -/
theorem linkTypes_spec {visit : EntityId → LinkM Unit} (hgrows : ∀ id, Grows errors (visit id))
    (hvisit : VisitsWell t₀ Root budget visit) (ht₀ : t₀.Declared) (hl : Linking t₀ Root l)
    (hbudget : l.table.unused ≤ budget) (hused : l.table.isInUse id = true) {e : Entity}
    (he : l.table.entity? id = some e) (hclean : ((linkTypes visit id).run l).2.Clean) :
    TypesLinked t₀ Root l id e ((linkTypes visit id).run l).2 := by
  have rule : ∀ names, t₀.names.size ≤ names →
      WalkRule (fun at_ t => resolve visit at_ names [] t)
        (fun l => l.Clean → Linking t₀ Root l ∧ l.table.unused ≤ budget)
        (fun l l' => l.errors ≤ l'.errors ∧ (l'.Clean → Ahead t₀ l l')) (Resolvable t₀ Root)
        (fun t u l => l.Clean → Expands t₀ t u ∧ l.table.Linked u) := fun names hnames =>
    { refl := fun l _ => ⟨Nat.le_refl _, fun _ => .refl l⟩
      trans := fun h h' => ⟨Nat.le_trans h.1 h'.1, fun hclean =>
        (h.2 (hclean.of_le h'.1)).trans (h'.2 hclean)⟩
      post_leads := fun h hpost hclean => by
        obtain ⟨hexpands, hlinked⟩ := hpost (hclean.of_le h.1)
        exact ⟨hexpands, (h.2 hclean).linked hlinked⟩
      step := fun at_ t l hl ht => Resolves.step (grows_resolve hgrows at_ names [] t) hl
        fun _ => resolve_spec hgrows hvisit ht₀ at_ names ⟨List.nodup_nil, fun _ h => nomatch h⟩
          (by simpa using hnames) ht l }
  unfold linkTypes at hclean ⊢
  rw [run_get_bind] at hclean ⊢
  simp only [he] at hclean ⊢
  rw [run_get_bind, run_bind] at hclean ⊢
  have htypes : ∀ ty ∈ e.types, Resolvable t₀ Root ty.2 := fun ty hty =>
    ⟨(hl.types ht₀ hused he ty hty).1, (hl.types ht₀ hused he ty hty).2⟩
  have hnames : t₀.names.size = l.table.names.size := congrArg Register.size hl.names.symm
  obtain ⟨hinv, hleads, hrebuilt⟩ := (rule l.table.names.size (Nat.le_of_eq hnames)).run
    (s := l) htypes fun _ => ⟨hl, hbudget⟩
  generalize (e.mapTypesM fun at_ t => resolve visit at_ l.table.names.size [] t).run l = r at *
  obtain ⟨linked, l₁⟩ := r
  replace hclean : l₁.Clean := hclean
  have hlinking₁ := (hinv hclean).1
  have hahead := hleads.2 hclean
  have hrebuilt := hrebuilt.imp fun _ _ h => h hclean
  have he₁ : l₁.table.entity? id = some e := (hahead.kept id hused).trans he
  have hlinking := hlinking₁.put (hahead.used id hused) he₁ (hrebuilt.imp fun _ _ h => .inr h.1)
  show TypesLinked t₀ Root l id e (l₁.withTable (l₁.table.set id linked))
  have hused' : ∀ x, (l₁.table.set id linked).isInUse x = l₁.table.isInUse x := fun x => by simp
  have hmono : ∀ x, l₁.table.isInUse x = true → (l₁.table.set id linked).isInUse x = true ∧
      (l₁.table.set id linked).kind? x = l₁.table.kind? x := fun x hx =>
    ⟨(hused' x).trans hx, (hlinking.kind?_eq x).trans (hlinking₁.kind?_eq x).symm⟩
  refine
    { linking := hlinking
      entity := ⟨linked, SymbolTable.entity?_set_self (SymbolTable.lt_of_entity? he₁) linked,
        hrebuilt.blank, fun ty hty => ?_⟩
      used := fun x hx => (hused' x).trans (hahead.used x hx)
      kept := fun x hne hx => (SymbolTable.entity?_set_of_ne _ hne linked).trans (hahead.kept x hx)
      done := fun x hx hx' => ?_ }
  · obtain ⟨_, _, _, _, hlinked⟩ := hrebuilt.source hty
    exact hlinked.mono hmono
  · have hne : x ≠ id := by
      rintro rfl
      cases hused.symm.trans hx'
    exact (hahead.done x ((hused' x).symm.trans hx) hx').mono
      (SymbolTable.entity?_set_of_ne _ hne linked) hmono

theorem visitParent_spec {visit : EntityId → LinkM Unit} (hvisit : VisitsWell t₀ Root budget visit)
    (ht₀ : t₀.Declared) (hl : Linking t₀ Root l) (hbudget : l.table.unused ≤ budget)
    (hreached : Reached t₀ Root id)
    (hclean : ((visitParent visit (t₀.parentOf? id)).run l).2.Clean) :
    Linking t₀ Root ((visitParent visit (t₀.parentOf? id)).run l).2 ∧
      Ahead t₀ l ((visitParent visit (t₀.parentOf? id)).run l).2 ∧ ∀ y, t₀.HasParent id y →
        ((visitParent visit (t₀.parentOf? id)).run l).2.table.isInUse y = true := by
  cases hp : t₀.parentOf? id with
  | none =>
      refine ⟨hl, .refl l, fun y hy => ?_⟩
      cases hp.symm.trans hy
  | some p =>
      rw [hp] at hclean
      obtain ⟨hlinking, hahead, hused⟩ := hvisit p l hl hbudget (.parent hreached hp) hclean
      refine ⟨hlinking, hahead, fun y hy => ?_⟩
      cases hp.symm.trans hy
      obtain ⟨e, he⟩ := SymbolTable.entity?_of_lt (SymbolTable.HasParent.lt hp)
      obtain ⟨_, _, hlookup, _⟩ := (ht₀.hasParent_iff he).mp hp
      obtain ⟨e', he', _⟩ := (ht₀.types _ _).mp hlookup
      exact hused (SymbolTable.lt_of_entity? he')

/-- A visit leads to a state ahead, in which its entity is in use. -/
theorem visit_spec (ht₀ : t₀.Declared) (budget : Nat) :
    VisitsWell t₀ Root budget (visit budget) := by
  induction budget with
  | zero =>
    intro id l hl hbudget _ _
    refine ⟨hl, .refl l, fun hlt => ?_⟩
    exact SymbolTable.isInUse_of_unused (Nat.le_zero.mp hbudget) (hl.size ▸ hlt)
  | succ budget ih =>
    intro id l hl hbudget hreached hclean
    rw [visit, run_get_bind] at hclean ⊢
    by_cases hdue : l.isDue id = true
    · rw [if_pos hdue, run_bind, run_bind, run_bind] at hclean ⊢
      simp only [isDue, Bool.and_eq_true, Bool.not_eq_true', decide_eq_true_eq] at hdue
      obtain ⟨⟨_, hlt⟩, hfree⟩ := hdue
      have hgrows := grows_visit budget
      have hclean₃ := hclean.of_le (grows_visitParent hgrows _ _)
      obtain ⟨hparent, e, hentered⟩ := enter_spec ht₀ hl hlt hfree hreached
        (hclean₃.of_le (grows_linkTypes hgrows id _))
      generalize (linkParent id).run ((enter id).run l).2 = r at hclean hclean₃ hparent hentered ⊢
      obtain ⟨parent, l₂⟩ := r
      dsimp only at hclean hclean₃ hparent hentered ⊢
      subst hparent
      obtain ⟨e₂, he₂, hblank⟩ := hentered.placed
      have hlinked := linkTypes_spec hgrows ih ht₀ hentered.linking
        (by have := hentered.counted; omega) ((hentered.used id).mpr (.inl rfl)) he₂ hclean₃
      generalize ((linkTypes (visit budget) id).run l₂).2 = l₃ at hclean hlinked ⊢
      have hbudget₃ : l₃.table.unused ≤ budget := by
        have hle := SymbolTable.unused_le_unused
          (hlinked.linking.size.trans hentered.linking.size.symm) hlinked.used
        have := hentered.counted
        omega
      obtain ⟨hlinking, hahead, hparent⟩ :=
        visitParent_spec ih ht₀ hlinked.linking hbudget₃ hreached hclean
      generalize ((visitParent (visit budget) (t₀.parentOf? id)).run l₃).2 = l₄ at *
      have hid : l₃.table.isInUse id = true := hlinked.used id ((hentered.used id).mpr (.inl rfl))
      obtain ⟨linked, hentity, hblank₃, htypes⟩ := hlinked.entity
      have hdone : Done t₀ l₄ id := hentered.done ht₀ ((hahead.kept id hid).trans hentity)
        (hblank₃.trans hblank) (fun ty hty => hahead.linked (htypes ty hty)) hparent
      refine ⟨hlinking, ⟨fun x hx => ?_, fun x hx => ?_, fun x hx hx' => ?_⟩,
        fun _ => hahead.used id hid⟩
      · exact hahead.used x (hlinked.used x ((hentered.used x).mpr (.inr hx)))
      · have hne : x ≠ id := by
          rintro rfl
          cases hfree.symm.trans hx
        have hx₂ := (hentered.used x).mpr (.inr hx)
        rw [hahead.kept x (hlinked.used x hx₂), hlinked.kept x hne hx₂, hentered.others x hne]
      · by_cases hne : x = id
        · exact hne ▸ hdone
        · cases hx₃ : l₃.table.isInUse x with
          | false => exact hahead.done x hx hx₃
          | true =>
              have hx₂ : l₂.table.isInUse x = false := by
                rw [← Bool.not_eq_true, hentered.used, not_or, Bool.not_eq_true]
                exact ⟨hne, hx'⟩
              exact (hlinked.done x hx₃ hx₂).mono (hahead.kept x hx₃) fun y hy =>
                ⟨hahead.used y hy, hahead.kind?_eq hy⟩
    · rw [if_neg hdue] at hclean ⊢
      exact ⟨hl, .refl l, isInUse_of_not_due hl hclean hdue⟩

/-! ## Whole runs -/

/-- Linking an entity is a visit, and stops if there are too many errors then. -/
theorem link_eq (id : EntityId) (l : Linker) :
    link id l =
      (let visited := ((visit l.table.size id).run l).2
      if visited.compilation.isOverLimit = true then .error .tooManyErrors visited
      else .ok () visited) := by
  have hrest : link id l =
      (if ((visit l.table.size id).run l).2.compilation.isOverLimit = true then
        (throw .tooManyErrors : EStateM Stop Linker PUnit) else pure ⟨⟩)
        ((visit l.table.size id).run l).2 := rfl
  rw [hrest]
  dsimp only
  split
  · rfl
  · rfl

theorem link_ok {l' : Linker} {u : Unit} (h : link id l = .ok u l') :
    l' = ((visit l.table.size id).run l).2 ∧ l'.compilation.isOverLimit = false := by
  rw [link_eq] at h
  dsimp only at h
  split at h
  next => cases h
  next hlimit =>
    cases h
    exact ⟨rfl, Bool.not_eq_true _ ▸ hlimit⟩

theorem keeps_link (n : Nat) (id : EntityId) : Keeps (fun l : Linker => n ≤ l.errors) (link id) := by
  intro l hl u l' h
  rw [(link_ok h).1]
  exact Nat.le_trans hl (grows_visit _ _ _)

/-- Linking several entities leads to a state ahead, in which they are in use. -/
theorem forM_link_spec (ht₀ : t₀.Declared) {ids : List EntityId} {l l' : Linker} {u : Unit}
    (hl : Linking t₀ Root l) (hreached : ∀ id ∈ ids, Reached t₀ Root id)
    (h : ids.forM link l = .ok u l') (hclean : l'.Clean) :
    Linking t₀ Root l' ∧ Ahead t₀ l l' ∧
      ∀ id ∈ ids, id.index < t₀.size → l'.table.isInUse id = true := by
  induction ids generalizing l with
  | nil =>
    obtain ⟨_, rfl⟩ := pure_ok.mp h
    exact ⟨hl, .refl l, fun _ hid => nomatch hid⟩
  | cons id ids ih =>
    obtain ⟨l₁, hfirst, hrest⟩ := forM_cons_ok.mp h
    have hclean₁ : l₁.Clean :=
      hclean.of_le (Keeps.forM (fun id _ => keeps_link l₁.errors id) l₁ (Nat.le_refl _) _ _ hrest)
    rw [(link_ok hfirst).1] at hclean₁ hrest
    obtain ⟨hlinking₁, hahead₁, hused₁⟩ := visit_spec ht₀ _ id l hl l.table.unused_le_size
      (hreached id List.mem_cons_self) hclean₁
    obtain ⟨hlinking, hahead, hused⟩ :=
      ih hlinking₁ (fun x hx => hreached x (List.mem_cons_of_mem id hx)) hrest
    refine ⟨hlinking, hahead₁.trans hahead, fun x hx hlt => ?_⟩
    rcases List.mem_cons.mp hx with rfl | hx
    · exact hahead.used x (hused₁ hlt)
    · exact hused x hx hlt

/-- What is known when the linker has finished without errors. -/
structure Finished (t₀ : SymbolTable) (l : Linker) : Prop where
  linking : Linking t₀ (· ∈ t₀.idsOf .interface) l
  done : ∀ x, l.table.isInUse x = true → Done t₀ l x
  roots : ∀ x ∈ t₀.idsOf .interface, l.table.isInUse x = true

/-- The parent of an entity in use is in use and of its kind. -/
theorem Finished.parent (ht₀ : t₀.Declared) (h : l.Finished t₀) {x : EntityId} {e : Entity}
    (hused : l.table.isInUse x = true) (he : l.table.entity? x = some e) {p : TypeRef}
    (hp : e.parent? = some p) :
    ∃ y, p = .entity e.kind y ∧ l.table.isInUse y = true ∧ l.table.kind? y = some e.kind := by
  obtain ⟨y, rfl, hparent⟩ := (h.done x hused).parent e p he hp
  refine ⟨y, rfl, (h.done x hused).used y hparent, ?_⟩
  obtain ⟨e₀, he₀⟩ := h.linking.entity_before he
  obtain ⟨_, _, _, hkind⟩ := (ht₀.hasParent_iff he₀).mp hparent
  obtain ⟨e', he', hkind', _⟩ := h.linking.entity he₀
  obtain rfl := Option.some.inj (he'.symm.trans he)
  rw [h.linking.kind?_eq, hkind, hkind']

/-- Linking every interface without errors finishes. -/
theorem linkRoots_spec {c : Compilation} {l : Linker} {u : Unit} (hc : c.table.Declared)
    (h : linkRoots { compilation := c } = .ok u l) (hclean : l.Clean) : l.Finished c.table := by
  obtain ⟨_, _, hget, hforM⟩ := bind_ok.mp h
  obtain ⟨rfl, rfl⟩ := get_ok.mp hget
  obtain ⟨hlinking, hahead, hused⟩ := forM_link_spec hc
    (Linking.start hc rfl) (fun _ hid => .root hid) hforM hclean
  refine ⟨hlinking, fun x hx => hahead.done x hx (hc.unused x), fun x hx => ?_⟩
  obtain ⟨e, he, _⟩ := (c.table.mem_idsOf x).mp hx
  exact hused x hx (SymbolTable.lt_of_entity? he)

end Visits

end Linker

theorem withLinker_ok {action : EStateM Stop Linker Unit} {c c' : Compilation} {u : Unit} :
    withLinker action c = .ok u c' ↔
      ∃ l, action { compilation := c } = .ok () l ∧ l.compilation = c' := by
  unfold withLinker
  cases action { compilation := c } with
  | ok _ l =>
      constructor
      · intro h
        cases h
        exact ⟨l, rfl, rfl⟩
      · rintro ⟨_, h, rfl⟩
        cases h
        rfl
  | error stop l =>
      constructor
      · intro h
        cases h
      · rintro ⟨_, h, _⟩
        cases h

/-- Linking without errors finishes. -/
theorem linkInterfaces_spec {c c' : Compilation} {u : Unit} (hc : c.table.Declared)
    (h : linkInterfaces c = .ok u c') (hclean : c'.log.errorCount = 0) :
    ∃ l : Linker, l.compilation = c' ∧ l.Finished c.table := by
  obtain ⟨l, hrun, rfl⟩ := withLinker_ok.mp h
  exact ⟨l, rfl, Linker.linkRoots_spec hc hrun hclean⟩

end IdlModel
