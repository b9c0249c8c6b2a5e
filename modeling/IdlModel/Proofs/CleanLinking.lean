import IdlModel.Proofs.WellFormed

/-!
# Linking without errors

The linker reports no error exactly if every entity that is reached is well formed.

*Nothing is missed.*  This is what a run without errors has established
(`Linker.Finished.wellFormed`).

*No false alarm.*  While it reports nothing, the linker keeps its invariant, and a
type that it meets is one that was declared or the expansion of one.  So the next
step has nothing to report either.  A typedef that is open is not met any more, for
it would be met in its own body.
-/

namespace IdlModel

open Syntax (Document)

namespace Linker

section Clean

variable (t₀ : SymbolTable) (Root : EntityId → Prop) (budget : Nat)

/-- A run that goes on without errors, with at most `budget` entities not in use. -/
structure Going (l : Linker) : Prop where
  linking : Linking t₀ Root l
  budget : l.table.unused ≤ budget
  clean : l.Clean

/-- Visits report nothing. -/
def VisitsClean (visit : EntityId → LinkM Unit) : Prop :=
  ∀ (id : EntityId) (l : Linker), Going t₀ Root budget l → Reached t₀ Root id →
    ((visit id).run l).2.Clean

variable {t₀ Root budget} {t u : TypeRef} {l : Linker} {id : EntityId} {e : Entity}

theorem Going.resolves {action : LinkM TypeRef} (hl : Going t₀ Root budget l)
    (h : Resolves t₀ Root budget t action l) (hclean : (action.run l).2.Clean) :
    Going t₀ Root budget (action.run l).2 := by
  obtain ⟨hlinking, hahead, _⟩ := h hl.linking hl.budget hclean
  exact ⟨hlinking, Nat.le_trans (hahead.unused_le hl.linking hlinking) hl.budget, hclean⟩

/-! ## Types -/

section Types

variable {visit : EntityId → LinkM Unit} {at_ : Location}

theorem checkGeneric_of_known (h : ∀ name args, t = .parametrized name args → name ∈ knownGenerics) :
    checkGeneric at_ t = pure () := by
  unfold checkGeneric
  split
  next name args => exact if_pos (List.contains_iff_mem.mpr (h name args rfl))
  next => rfl

/-- A declared name is resolved without a report. -/
theorem resolveName_stays {name : String} {expand : String → Nat → Typedef → LinkM TypeRef}
    (ht₀ : t₀.Declared) (hvisit : VisitsClean t₀ Root budget visit) (hl : Going t₀ Root budget l)
    (ht : Resolvable t₀ Root (.unlinked name)) (hwell : WellFormedType t₀ (.unlinked name))
    (hexpand : ∀ i d₀ d, t₀.lookup? name = some (.typedef i) → t₀.typedefs[i]? = some d₀ →
      Unfolds t₀ d₀.type d.type → ((expand name i d).run l).2.Clean) :
    ((resolveName visit at_ expand name).run l).2.Clean := by
  unfold resolveName
  rw [run_get_bind]
  rcases hwell.declared name .self with ⟨id, hlookup⟩ | ⟨i, hlookup⟩
  · simp only [hl.linking.lookup?_eq, hlookup]
    rw [run_bind, run_get_bind]
    have hvisited := hvisit id l hl (ht.reached id (.type hlookup))
    split
    · exact hvisited
    · exact hvisited
  · obtain ⟨d₀, hd₀, _⟩ := (ht₀.typedefs name i).mp hlookup
    obtain ⟨d, hd, hunfolds⟩ := hl.linking.bodies i d₀ hd₀
    simp only [hl.linking.lookup?_eq, hlookup, hd]
    exact hexpand i d₀ d hlookup hd₀ hunfolds

theorem memoize_stays (i : Nat) (hl : l.Clean) : ((memoize i u).run l).2.Clean := by
  unfold memoize
  split
  · exact hl
  · exact hl

theorem resolvePart_stays {onName : String → LinkM TypeRef}
    (hvisit : VisitsClean t₀ Root budget visit) (hl : Going t₀ Root budget l)
    (ht : Resolvable t₀ Root t)
    (honName : ∀ name, t = .unlinked name → ((onName name).run l).2.Clean) (us : List TypeRef) :
    ((resolvePart visit onName (t.withParts us)).run l).2.Clean := by
  cases t with
  | entity kind id => exact hvisit id l hl (ht.reached id .handle)
  | unlinked name => exact honName name rfl
  | _ =>
      rw [resolvePart_eq_pure (TypeRef.isName_withParts _ us) (TypeRef.entity?_withParts _ us)]
      exact hl.clean

/-- A walk over a well-formed type reports nothing if expanding a typedef does not. -/
theorem rebuild_stays {expand : String → Nat → Typedef → LinkM TypeRef} (ht₀ : t₀.Declared)
    (hvisit : VisitsClean t₀ Root budget visit)
    (hspec : ∀ u, Resolvable t₀ Root u → ∀ l, Resolves t₀ Root budget u
      (u.rebuildM (checkGeneric at_) (resolvePart visit (resolveName visit at_ expand))) l)
    (hexpand : ∀ name i d₀ d, Meets t₀ t (.unlinked name) → t₀.lookup? name = some (.typedef i) →
      t₀.typedefs[i]? = some d₀ → Unfolds t₀ d₀.type d.type →
        ∀ l, Going t₀ Root budget l → ((expand name i d).run l).2.Clean)
    (ht : Resolvable t₀ Root t) (hwell : WellFormedType t₀ t) (hl : Going t₀ Root budget l) :
    ((t.rebuildM (checkGeneric at_)
      (resolvePart visit (resolveName visit at_ expand))).run l).2.Clean := by
  induction t using TypeRef.partsInduction generalizing l with
  | step t ih =>
    have hparts : ∀ u ∈ t.parts, ∀ l, Going t₀ Root budget l → Going t₀ Root budget
        ((u.rebuildM (checkGeneric at_)
          (resolvePart visit (resolveName visit at_ expand))).run l).2 := by
      intro u hu l hl
      have hresolvable := ht.part hu
      refine hl.resolves (hspec u hresolvable l) (ih u hu ?_ hresolvable ?_ hl)
      · exact fun name i d₀ d hname => hexpand name i d₀ d (.part hu hname)
      · exact hwell.of_meets (.part hu .self)
    rw [TypeRef.run_rebuildM,
      checkGeneric_of_known fun name args heq => hwell.generics name args (heq ▸ .self)]
    have hgoing := TypeRef.rebuildListM_keeps hparts hl
    refine resolvePart_stays hvisit hgoing ht (fun name heq => ?_) _
    subst heq
    refine resolveName_stays ht₀ hvisit hgoing ht hwell fun i d₀ d hlookup hd₀ hunfolds => ?_
    exact hexpand name i d₀ d .self hlookup hd₀ hunfolds _ hgoing

/-- Resolving a well-formed type reports nothing.  No typedef that is open is met in
it. -/
theorem resolve_stays (hgrows : ∀ id, Grows errors (visit id))
    (hspec : VisitsWell t₀ Root budget visit) (ht₀ : t₀.Declared)
    (hvisit : VisitsClean t₀ Root budget visit) (at_ : Location) (fuel : Nat)
    {opened : List String} (hopened : Opened t₀ opened)
    (hfuel : t₀.names.size ≤ fuel + opened.length)
    (hfresh : ∀ name ∈ opened, ¬ Meets t₀ t (.unlinked name)) (ht : Resolvable t₀ Root t)
    (hwell : WellFormedType t₀ t) (hl : Going t₀ Root budget l) :
    ((resolve visit at_ fuel opened t).run l).2.Clean := by
  induction fuel using Nat.strong_induction_on generalizing opened t l with
  | h fuel ih =>
    rw [resolve]
    refine rebuild_stays ht₀ hvisit (fun u hu l => ?_)
      (fun name i d₀ d hname hlookup hd₀ hunfolds l hl => ?_) ht hwell hl
    · rw [← resolve]
      exact resolve_spec hgrows hspec ht₀ at_ fuel hopened hfuel hu l
    have hclosed : ¬ opened.contains name = true := fun hmem =>
      hfresh name (List.contains_iff_mem.mp hmem) hname
    rw [if_neg hclosed]
    cases fuel with
    | zero => exact hl.clean
    | succ fuel =>
      have hbody : Meets t₀ t d₀.type := hname.trans (.typedef hlookup hd₀ .self)
      have hresolvable : Resolvable t₀ Root d.type := .body ht₀ hd₀
        (fun y hy => ht.reached y (hbody.mentions hy)) hunfolds
      refine memoize_stays i (ih fuel (Nat.lt_succ_self fuel) (hopened.cons hlookup hclosed) ?_
        (List.forall_mem_cons.mpr ⟨fun hagain => ?_, fun other hother hmet => ?_⟩) hresolvable
        ((hwell.of_meets hbody).unfolds hunfolds) hl)
      · rw [List.length_cons]
        omega
      · exact hwell.acyclic name i d₀ hname hlookup hd₀ (hunfolds.meets_unlinked hagain)
      · exact hfresh other hother (hbody.trans (hunfolds.meets_unlinked hmet))

end Types

/-! ## Visits -/

/-- A parent of the same kind that is on no cycle is taken without a report. -/
theorem linkParent_stays (hl : l.Clean) (he : l.table.entity? id = some e)
    (hparent : ∀ p, e.parent? = some p → ∃ name y, p = .unlinked name ∧
      l.table.lookup? name = some (.type y) ∧ l.table.kind? y = some e.kind)
    (hacyclic : ¬ l.table.OnCycle id) : ((linkParent id).run l).2.Clean := by
  unfold linkParent
  rw [run_get_bind]
  simp only [he]
  cases hp : e.parent? with
  | none => exact hl
  | some p =>
      obtain ⟨name, y, rfl, hlookup, hkind⟩ := hparent p hp
      have hup : l.table.HasParent id y := by
        rw [SymbolTable.HasParent, SymbolTable.parentOf?_eq he, hp]
        simp [SymbolTable.lookupType?, hlookup, hkind]
      have hresolve : (resolveParent e (.unlinked name)).run l = (some y, l) := by
        unfold resolveParent
        rw [run_get_bind]
        simp only [hlookup, if_pos hkind]
        rfl
      have hcut : (cutCycle e id (some y)).run l = (some y, l) := by
        unfold cutCycle
        dsimp only
        rw [run_get_bind, if_neg]
        · rfl
        · rw [hup.onCycle_iff] at hacyclic
          simpa only [Bool.or_eq_true, decide_eq_true_eq, List.contains_iff_mem] using hacyclic
      simp only
      rw [run_bind, hresolve, run_bind, hcut]
      exact hl

/-- The parent of a well-formed entity is linked without a report. -/
theorem enter_stays (ht₀ : t₀.Declared) (hl : Going t₀ Root budget l)
    (hlt : id.index < l.table.size) (hfree : l.table.isInUse id = false)
    (hwell : WellFormed t₀ id) : ((linkParent id).run ((enter id).run l).2).2.Clean := by
  obtain ⟨e, he⟩ := SymbolTable.entity?_of_lt hlt
  have he₀ : t₀.entity? id = some e := by rw [← hl.linking.unused id hfree, he]
  have htable : ((enter id).run l).2.table = l.table.mark id := rfl
  refine linkParent_stays (e := e) hl.clean ?_ (fun p hp => ?_) ?_
  · rw [htable, SymbolTable.entity?_mark, he]
  · obtain ⟨name, y, hname, hlookup, hkind⟩ := hwell.parent e p he₀ hp
    refine ⟨name, y, hname, ?_, ?_⟩
    · exact (hl.linking.lookup?_eq name).trans hlookup
    · rw [htable, SymbolTable.kind?_mark, hl.linking.kind?_eq, hkind]
  · rw [htable, SymbolTable.onCycle_congr (l.table.parentOf?_mark id),
      SymbolTable.onCycle_congr (hl.linking.parentOf?_eq ht₀)]
    exact hwell.acyclic id .refl

theorem linkTypes_stays {visit : EntityId → LinkM Unit} (hgrows : ∀ id, Grows errors (visit id))
    (hspec : VisitsWell t₀ Root budget visit) (ht₀ : t₀.Declared)
    (hvisit : VisitsClean t₀ Root budget visit) (hl : Going t₀ Root budget l)
    (hused : l.table.isInUse id = true) (he : l.table.entity? id = some e)
    (hwell : ∀ ty ∈ e.types, WellFormedType t₀ ty.2) :
    ((linkTypes visit id).run l).2.Clean := by
  have rule : WalkRule (fun at_ t => resolve visit at_ l.table.names.size [] t)
      (Going t₀ Root budget) (fun _ _ => True)
      (fun t => Resolvable t₀ Root t ∧ WellFormedType t₀ t) (fun _ _ _ => True) :=
    { refl := fun _ _ => trivial
      trans := fun _ _ => trivial
      post_leads := fun _ _ => trivial
      step := fun at_ t s hs ht => by
        have hopened : Opened t₀ [] := ⟨List.nodup_nil, fun _ h => nomatch h⟩
        have hfuel : t₀.names.size ≤ l.table.names.size + ([] : List String).length :=
          Nat.le_of_eq (congrArg Register.size hl.linking.names.symm)
        refine ⟨hs.resolves (resolve_spec hgrows hspec ht₀ at_ _ hopened hfuel ht.1 s) ?_,
          trivial, trivial⟩
        exact resolve_stays hgrows hspec ht₀ hvisit at_ _ hopened hfuel (fun _ h => nomatch h)
          ht.1 ht.2 hs }
  unfold linkTypes
  rw [run_get_bind]
  simp only [he]
  rw [run_get_bind, run_bind]
  have htypes := hl.linking.types ht₀ hused he
  obtain ⟨hgoing, _⟩ := rule.run (e := e) (s := l)
    (fun ty hty => ⟨⟨(htypes ty hty).1, (htypes ty hty).2⟩, hwell ty hty⟩) hl
  exact hgoing.clean

/-- If every entity that is reached is well formed, a visit reports nothing. -/
theorem visit_stays (ht₀ : t₀.Declared) (hwell : ∀ x, Reached t₀ Root x → WellFormed t₀ x)
    (budget : Nat) : VisitsClean t₀ Root budget (visit budget) := by
  induction budget with
  | zero => exact fun _ _ hl _ => hl.clean
  | succ budget ih =>
    intro id l hl hreached
    rw [visit, run_get_bind]
    by_cases hdue : l.isDue id = true
    · rw [if_pos hdue, run_bind, run_bind, run_bind]
      simp only [isDue, Bool.and_eq_true, Bool.not_eq_true', decide_eq_true_eq] at hdue
      obtain ⟨⟨_, hlt⟩, hfree⟩ := hdue
      have hgrows := grows_visit budget
      have hvisits : VisitsWell t₀ Root budget (visit budget) := visit_spec ht₀ budget
      have hclean₂ := enter_stays ht₀ hl hlt hfree (hwell id hreached)
      obtain ⟨hparent, e, hentered⟩ := enter_spec ht₀ hl.linking hlt hfree hreached hclean₂
      generalize (linkParent id).run ((enter id).run l).2 = r at hclean₂ hparent hentered ⊢
      obtain ⟨parent, l₂⟩ := r
      dsimp only at hclean₂ hparent hentered ⊢
      subst hparent
      obtain ⟨e₂, he₂, _⟩ := hentered.placed
      have hused := (hentered.used id).mpr (.inl rfl)
      have hbudget : l₂.table.unused ≤ budget := by
        have := hentered.counted
        have := hl.budget
        omega
      have hclean₃ := linkTypes_stays hgrows hvisits ht₀ ih ⟨hentered.linking, hbudget, hclean₂⟩
        hused he₂ fun ty hty => by
          obtain ⟨y, e₀, hy, he₀, ty₀, hty₀, hunfolds⟩ := hentered.linking.declares hused he₂ hty
          exact ((hwell y hy).types e₀ he₀ ty₀ hty₀).unfolds hunfolds
      have hlinked := linkTypes_spec hgrows hvisits ht₀ hentered.linking hbudget hused he₂ hclean₃
      cases hp : t₀.parentOf? id with
      | none => exact hclean₃
      | some p =>
          refine ih p _ ⟨hlinked.linking, ?_, hclean₃⟩ (.parent hreached hp)
          exact Nat.le_trans (SymbolTable.unused_le_unused
            (hlinked.linking.size.trans hentered.linking.size.symm) hlinked.used) hbudget
    · rw [if_neg hdue]
      exact hl.clean

/-- Linking several entities finishes and reports nothing. -/
theorem forM_link_stays (ht₀ : t₀.Declared) (hwell : ∀ x, Reached t₀ Root x → WellFormed t₀ x)
    {ids : List EntityId} (hreached : ∀ id ∈ ids, Reached t₀ Root id) (hl : Linking t₀ Root l)
    (hclean : l.Clean) : ∃ l', ids.forM link l = .ok () l' ∧ l'.Clean := by
  induction ids generalizing l with
  | nil => exact ⟨l, rfl, hclean⟩
  | cons id ids ih =>
    have hgoing : Going t₀ Root l.table.size l := ⟨hl, l.table.unused_le_size, hclean⟩
    have hid := hreached id List.mem_cons_self
    have hclean₁ := visit_stays ht₀ hwell l.table.size id l hgoing hid
    obtain ⟨hl₁, _⟩ := visit_spec ht₀ l.table.size id l hl l.table.unused_le_size hid hclean₁
    have hfirst := link_eq id l
    dsimp only at hfirst
    rw [if_neg (by rw [hclean₁.not_isOverLimit]; exact Bool.false_ne_true)] at hfirst
    obtain ⟨l', hrest, hclean'⟩ :=
      ih (fun x hx => hreached x (List.mem_cons_of_mem id hx)) hl₁ hclean₁
    exact ⟨l', forM_cons_ok.mpr ⟨_, hfirst, hrest⟩, hclean'⟩

/-- Linking stops for errors only. -/
theorem forM_link_finishes {ids : List EntityId} (h : (endState (ids.forM link l)).Clean) :
    ∃ l', ids.forM link l = .ok () l' := by
  induction ids generalizing l with
  | nil => exact ⟨l, rfl⟩
  | cons id ids ih =>
    have hfirst := link_eq id l
    dsimp only at hfirst
    by_cases hlimit : ((visit l.table.size id).run l).2.compilation.isOverLimit = true
    · rw [if_pos hlimit] at hfirst
      rw [forM_cons_error hfirst] at h
      cases hlimit.symm.trans h.not_isOverLimit
    · rw [if_neg hlimit] at hfirst
      rw [forM_cons_run hfirst] at h ⊢
      exact ih h

end Clean

variable {c : Compilation}

/-- If every entity that is reached is well formed, linking finishes and reports
nothing. -/
theorem linkRoots_stays (hc : c.table.Declared)
    (hwell : ∀ x, Reached c.table (· ∈ c.table.idsOf .interface) x → WellFormed c.table x)
    (hclean : c.Clean) : ∃ l, linkRoots { compilation := c } = .ok () l ∧ l.Clean := by
  have hroots : ∀ id ∈ c.table.idsOf .interface,
      Reached c.table (· ∈ c.table.idsOf .interface) id := fun _ hid => .root hid
  obtain ⟨l, hrun, hclean⟩ := forM_link_stays hc hwell hroots (Linking.start hc rfl) hclean
  exact ⟨l, bind_ok.mpr ⟨_, _, rfl, hrun⟩, hclean⟩

/-- If linking reports nothing, it finishes. -/
theorem linkRoots_finishes (h : (endState (linkInterfaces c)).Clean) :
    ∃ l, linkRoots { compilation := c } = .ok () l := by
  have hroots : (endState (linkRoots { compilation := c })).Clean := by
    unfold linkInterfaces withLinker at h
    cases hrun : linkRoots { compilation := c } with
    | ok _ l =>
        rw [hrun] at h
        exact h
    | error _ l =>
        rw [hrun] at h
        exact h
  exact forM_link_finishes hroots

end Linker

/-- Linking reports no error if and only if every entity that is reached from the
interfaces is well formed.  (A parent of another kind is not followed, but an entity
that has one is not well formed.) -/
theorem link_clean_iff_wellFormed {documents : List Document} {settings : Settings}
    {merged : Compilation} (h : mergeDocuments documents { settings } = .ok () merged) :
    (endState (linkInterfaces merged)).log.errorCount = 0 ↔
      ∀ x, Reached merged.table (· ∈ merged.table.idsOf .interface) x →
        WellFormed merged.table x := by
  have hdeclared := mergeDocuments_declared h
  constructor
  · intro hclean x hx
    obtain ⟨l, hroots⟩ := Linker.linkRoots_finishes hclean
    have hlink : linkInterfaces merged = .ok () l.compilation :=
      withLinker_ok.mpr ⟨l, hroots, rfl⟩
    rw [hlink] at hclean
    exact (Linker.linkRoots_spec hdeclared hroots hclean).wellFormed hdeclared hx
  · intro hwell
    obtain ⟨l, hroots, hclean⟩ := Linker.linkRoots_stays hdeclared hwell (mergeDocuments_clean h)
    have hlink : linkInterfaces merged = .ok () l.compilation :=
      withLinker_ok.mpr ⟨l, hroots, rfl⟩
    rw [hlink]
    exact hclean

theorem link_clean_iff_wellFormed_meter :
    ∃ merged, mergeDocuments [meter] { settings := {} } = .ok () merged ∧
      (endState (linkInterfaces merged)).log.errorCount = 0 ∧
      ∀ x, Reached merged.table (· ∈ merged.table.idsOf .interface) x →
        WellFormed merged.table x := by
  obtain ⟨merged, linked, hmerge, hlink⟩ := meter_links
  obtain ⟨hrun, hclean⟩ := runStage_ok.mp hlink
  have hend : (endState (linkInterfaces merged)).log.errorCount = 0 := by
    rw [hrun]
    exact hclean
  exact ⟨merged, hmerge, hend, (link_clean_iff_wellFormed hmerge).mp hend⟩

end IdlModel
