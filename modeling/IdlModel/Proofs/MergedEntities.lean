import IdlModel.Proofs.Declaring
import IdlModel.Proofs.Growth

/-!
# Merged entities

What the second stage makes of every entity and every mixin.

*Bases.*  Merging changes neither names nor kinds, so a fragment belongs to the same
entity from the first round to the last one: `SameShape`.

*Rounds.*  A round changes an entity by the fragments that belong to it, in order.  A
fragment that belongs nowhere is reported, as an error, and changes nothing.

*Mixins.*  They only change in the third round.  So an includes statement adds a mixin
as it is behind the stage.
-/

namespace IdlModel

/-! ## Bases -/

namespace SymbolTable

variable {t t' : SymbolTable} {x : EntityId}

namespace SameShape

theorem baseOf_eq (h : t.SameShape t') : t'.baseOf = t.baseOf := by
  funext name kind
  simp only [baseOf, lookup?, declarationKind?, h.names, h.kinds]

theorem baseMixin_eq (h : t.SameShape t') : t'.baseMixin = t.baseMixin := by
  funext name
  simp only [baseMixin, lookup?, declarationKind?, h.names, h.kinds]

theorem inclusionOf_eq (h : t.SameShape t') (hmixins : t'.mixins = t.mixins) :
    t'.inclusionOf = t.inclusionOf := by
  funext d
  simp only [inclusionOf, h.lookupType?_eq, lookup?, h.names, h.kinds, hmixins]

end SameShape

/-! ### Where fragments belong -/

theorem baseOf_ok {name : String} {kind : EntityKind} :
    t.baseOf name kind = .ok x ↔ t.lookupType? name = some x ∧ t.kind? x = some kind := by
  unfold baseOf lookupType?
  cases t.lookup? name with
  | none => simp
  | some symbol =>
      cases symbol with
      | type id =>
          by_cases hkind : t.kind? id = some kind
          · simp only [hkind, if_true, Except.ok.injEq, Option.some.injEq]
            constructor
            · rintro rfl
              exact ⟨rfl, hkind⟩
            · exact And.left
          · simp only [hkind, if_false, reduceCtorEq, Option.some.injEq, false_iff, not_and]
            rintro rfl
            exact hkind
      | mixin | typedef => simp

theorem baseMixin_ok {name : String} {i : Nat} :
    t.baseMixin name = .ok i ↔ t.lookup? name = some (.mixin i) := by
  unfold baseMixin
  cases t.lookup? name with
  | none => simp
  | some symbol => cases symbol <;> simp

theorem inclusionOf_ok {d : Inclusion} {m : Mixin} :
    t.inclusionOf d = .ok (x, m) ↔
      (t.lookupType? d.target = some x ∧ t.kind? x = some .interface) ∧
        ∃ i, t.lookup? d.mixin = some (.mixin i) ∧ t.mixins[i]? = some m := by
  have htarget : (t.lookupType? d.target).filter (t.kind? · == some .interface) = some x ↔
      t.lookupType? d.target = some x ∧ t.kind? x = some .interface := by
    rw [Option.filter_eq_some_iff, beq_iff_eq]
  rw [← htarget]
  unfold inclusionOf
  cases (t.lookupType? d.target).filter (t.kind? · == some .interface) with
  | none => simp
  | some id =>
      cases t.lookup? d.mixin with
      | none => simp
      | some symbol =>
          cases symbol with
          | type | typedef => simp
          | mixin i =>
              simp only [Option.some.injEq, Symbol.mixin.injEq, exists_eq_left']
              cases t.mixins[i]? with
              | none => simp
              | some found => simp

/-- An entity is found by its name and its kind. -/
theorem Declared.baseOf_eq_ok (ht : t.Declared) {e : Entity} (he : t.entity? x = some e)
    (name : String) (kind : EntityKind) :
    t.baseOf name kind = .ok x ↔ e.kind = kind ∧ name = e.key := by
  rw [baseOf_ok, lookupType?_eq_some, ht.types, he, kind?_eq he, and_comm]
  simp only [Option.some.injEq, exists_eq_left', eq_comm]

/-- A mixin is found by its name. -/
theorem Declared.baseMixin_eq_ok (ht : t.Declared) {i : Nat} {m : Mixin}
    (hm : t.mixins[i]? = some m) (name : String) :
    t.baseMixin name = .ok i ↔ name = m.identity.idl := by
  rw [baseMixin_ok, ht.mixins, hm]
  simp only [Option.some.injEq, exists_eq_left', eq_comm]

/-- What is wrong with a fragment is an error. -/
theorem baseOf_error {name : String} {kind : EntityKind} {issue : Issue}
    (h : t.baseOf name kind = .error issue) : issue.severity = .error := by
  unfold baseOf at h
  split at h
  next =>
    cases h
    rfl
  next =>
    split at h
    next =>
      split at h
      next => cases h
      next =>
        cases h
        rfl
    next =>
      cases h
      rfl

theorem baseMixin_error {name : String} {issue : Issue} (h : t.baseMixin name = .error issue) :
    issue.severity = .error := by
  unfold baseMixin at h
  split at h
  next =>
    cases h
    rfl
  next => cases h
  next =>
    cases h
    rfl

theorem inclusionOf_error {d : Inclusion} {issue : Issue} (h : t.inclusionOf d = .error issue) :
    issue.severity = .error := by
  unfold inclusionOf at h
  split at h
  next =>
    cases h
    rfl
  next =>
    split at h
    next =>
      split at h
      next => cases h
      next =>
        cases h
        rfl
    next =>
      cases h
      rfl

end SymbolTable

/-! ## Reports -/

/-- The log with several issues reported in order. -/
def Log.reportAll (l : Log) (issues : List LocatedIssue) : Log :=
  issues.foldl (fun l (issue, at_) => l.report issue at_) l

theorem Log.reportAll_append (l : Log) (xs ys : List LocatedIssue) :
    l.reportAll (xs ++ ys) = (l.reportAll xs).reportAll ys :=
  List.foldl_append

theorem Log.errorCount_reportAll {issues : List LocatedIssue}
    (h : ∀ r ∈ issues, r.1.severity = .error) (l : Log) :
    (l.reportAll issues).errorCount = l.errorCount + issues.length := by
  induction issues generalizing l with
  | nil => rfl
  | cons r issues ih =>
    obtain ⟨hr, hissues⟩ := List.forall_mem_cons.mp h
    have hreport : (l.report r.1 r.2).errorCount = l.errorCount + 1 := by
      rw [Log.report, Log.errorCount_add]
      simp [Diagnostic.isError, Diagnostic.severity, hr]
    show ((l.report r.1 r.2).reportAll issues).errorCount = _
    rw [ih hissues, hreport, List.length_cons]
    omega

section Problems

variable {β : Type} {found : Except Issue β} {at_ : Location}

/-- What is wrong, with the place it shows at. -/
def problem? (found : Except Issue β) (at_ : Location) : Option LocatedIssue :=
  match found with
  | .ok _ => none
  | .error issue => some (issue, at_)

theorem problem?_eq_none : problem? found at_ = none ↔ ∃ r, found = .ok r := by
  cases found <;> simp [problem?]

theorem problem?_eq_some {r : LocatedIssue} :
    problem? found at_ = some r ↔ found = .error r.1 ∧ r.2 = at_ := by
  obtain ⟨issue, place⟩ := r
  cases found <;> simp [problem?, eq_comm]

end Problems

/-! ## Rounds -/

/-- A fragment changes the table, or it is reported. -/
theorem mergeFound_ok {β : Type} {found : Except Issue β} {source : Location}
    {change : β → SymbolTable → SymbolTable} {c c' : Compilation} {u : Unit}
    (h : mergeFound found source change c = .ok u c') :
    (∃ r, found = .ok r ∧ c' = { c with table := change r c.table }) ∨
      ∃ issue, found = .error issue ∧ c' = c.report issue source := by
  unfold mergeFound at h
  split at h
  next r => exact .inl ⟨r, rfl, modify_ok.mp h⟩
  next issue =>
    obtain ⟨_, _, hreport, hcheck⟩ := bind_ok.mp h
    rw [checkLimit_ok hcheck]
    exact .inr ⟨issue, rfl, modify_ok.mp hreport⟩

/-- What a fragment makes of what is at a place, if it is found to belong there. -/
def changeAt {β κ ν : Type} [DecidableEq κ] (found : Except Issue β) (place : β → κ)
    (change : β → ν → ν) (x : κ) (v : ν) : ν :=
  match found with
  | .ok r => if place r = x then change r v else v
  | .error _ => v

section Rounds

variable {α β κ ν : Type} [DecidableEq κ]

theorem changeAt_ok (r : β) (place : β → κ) (change : β → ν → ν) (x : κ) (v : ν) :
    changeAt (.ok r) place change x v = if place r = x then change r v else v := rfl

theorem changeAt_error (issue : Issue) (place : β → κ) (change : β → ν → ν) (x : κ) (v : ν) :
    changeAt (.error issue) place change x v = v := rfl

/-- A round that changes what is in some places of the table.  Tables related by `Same`
find the same places. -/
structure MergeRound (merge : α → CompileM Unit) (find : SymbolTable → α → Except Issue β)
    (source : α → Location) (place : β → κ) (change : α → β → ν → ν)
    (look : SymbolTable → κ → Option ν) (Same : SymbolTable → SymbolTable → Prop) : Prop where
  step : ∀ {d c u c'}, merge d c = .ok u c' →
    (∃ r t, find c.table d = .ok r ∧ c' = { c with table := t } ∧ Same c.table t ∧
      ∀ x, look t x = if place r = x then (look c.table x).map (change d r) else look c.table x) ∨
    ∃ issue, find c.table d = .error issue ∧ c' = c.report issue (source d)
  refl : ∀ t, Same t t
  trans : ∀ {t t' t''}, Same t t' → Same t' t'' → Same t t''
  find_eq : ∀ {t t'}, Same t t' → find t' = find t

variable {merge : α → CompileM Unit} {find : SymbolTable → α → Except Issue β}
  {source : α → Location} {place : β → κ} {change : α → β → ν → ν}
  {look : SymbolTable → κ → Option ν} {Same : SymbolTable → SymbolTable → Prop}

/-- A round changes what is in each place by the fragments found to belong there, reports the
others, and does nothing else. -/
theorem MergeRound.run (h : MergeRound merge find source place change look Same) {ds : List α}
    {c c' : Compilation} {u : Unit} (hrun : ds.forM merge c = .ok u c') :
    Same c.table c'.table ∧
      c' = { c with
        table := c'.table
        log := c.log.reportAll (ds.filterMap fun d => problem? (find c.table d) (source d)) } ∧
      ∀ x, look c'.table x = (look c.table x).map fun v =>
        ds.foldl (fun v d => changeAt (find c.table d) place (change d) x v) v := by
  induction ds generalizing c with
  | nil =>
    obtain ⟨_, rfl⟩ := pure_ok.mp hrun
    exact ⟨h.refl _, rfl, fun x => Option.map_id'.symm⟩
  | cons d ds ih =>
    obtain ⟨c₁, hfirst, hrest⟩ := forM_cons_ok.mp hrun
    obtain ⟨hsame, hstate, hlook⟩ := ih hrest
    rcases h.step hfirst with ⟨r, t, hr, rfl, hfirst, hplace⟩ | ⟨issue, hissue, rfl⟩
    · simp only at hsame hstate hlook
      rw [h.find_eq hfirst] at hstate hlook
      refine ⟨h.trans hfirst hsame, ?_, fun x => ?_⟩
      · have hnone : problem? (find c.table d) (source d) = none := problem?_eq_none.mpr ⟨r, hr⟩
        simp only [List.filterMap_cons, hnone]
        exact hstate
      · rw [hlook, hplace]
        simp only [List.foldl_cons, hr, changeAt_ok]
        by_cases hx : place r = x
        · simp only [if_pos hx, Option.map_map]
          rfl
        · simp only [if_neg hx]
    · refine ⟨hsame, ?_, fun x => ?_⟩
      · have hsome : problem? (find c.table d) (source d) = some (issue, source d) :=
          problem?_eq_some.mpr ⟨hissue, rfl⟩
        simp only [List.filterMap_cons, hsome]
        exact hstate
      · rw [hlook]
        simp only [List.foldl_cons, hissue, changeAt_error]
        rfl

end Rounds

/-! ### The four rounds -/

namespace SymbolTable

/-- Tables that differ at most in what their entities and mixins say. -/
structure SameFrame (t t' : SymbolTable) : Prop extends t.SameShape t' where
  typedefs : t'.typedefs = t.typedefs
  promises : t'.promises = t.promises
  marks : ∀ x, t'.isInUse x = t.isInUse x

variable {t t' t'' : SymbolTable}

theorem SameFrame.refl (t : SymbolTable) : t.SameFrame t where
  toSameShape := .refl t
  typedefs := rfl
  promises := rfl
  marks _ := rfl

theorem SameFrame.trans (h : t.SameFrame t') (h' : t'.SameFrame t'') : t.SameFrame t'' where
  toSameShape := h.toSameShape.trans h'.toSameShape
  typedefs := h'.typedefs.trans h.typedefs
  promises := h'.promises.trans h.promises
  marks x := (h'.marks x).trans (h.marks x)

theorem sameFrame_modify (t : SymbolTable) (x : EntityId) {f : Entity → Entity}
    (hf : ∀ e, (f e).kind = e.kind) : t.SameFrame (t.modify x f) where
  toSameShape := t.sameShape_modify x hf
  typedefs := rfl
  promises := rfl
  marks y := t.isInUse_modify x y f

theorem sameFrame_extendMixin (t : SymbolTable) (i : Nat) (members : Members) :
    t.SameFrame (t.extendMixin i members) where
  toSameShape := ⟨rfl, rfl, fun _ => rfl⟩
  typedefs := rfl
  promises := rfl
  marks _ := rfl

end SymbolTable

/-- A round that adds to entities. -/
theorem MergeRound.ofEntities {α β : Type} {merge : α → CompileM Unit}
    {find : SymbolTable → α → Except Issue β} {place : β → EntityId}
    {change : α → β → Entity → Entity} {source : α → Location}
    (hmerge : ∀ d c, merge d c =
      mergeFound (find c.table d) (source d) (fun r t => t.modify (place r) (change d r)) c)
    (hkind : ∀ d r e, (change d r e).kind = e.kind)
    (hfind : ∀ {t t' : SymbolTable}, t.SameFrame t' → t'.mixins = t.mixins → find t' = find t) :
    MergeRound merge find source place change SymbolTable.entity?
      (fun t t' => t'.mixins = t.mixins ∧ t.SameFrame t') where
  step {d c u c'} h := by
    rw [hmerge] at h
    rcases mergeFound_ok h with ⟨r, hr, rfl⟩ | ⟨issue, hissue, rfl⟩
    · refine .inl ⟨r, _, hr, rfl, ⟨rfl, c.table.sameFrame_modify (place r) (hkind d r)⟩,
        fun x => ?_⟩
      rw [SymbolTable.entity?_modify]
      simp only [eq_comm]
    · exact .inr ⟨issue, hissue, rfl⟩
  refl t := ⟨rfl, .refl t⟩
  trans h h' := ⟨h'.1.trans h.1, h.2.trans h'.2⟩
  find_eq h := hfind h.2 h.1

/-- Fragments of dictionaries. -/
theorem dictionaryRound : MergeRound mergeDictionary
    (fun t d => t.baseOf d.identity.idl .dictionary) (fun d => d.identity.source) id
    (fun d _ => Entity.addFields d.members) SymbolTable.entity?
    (fun t t' => t'.mixins = t.mixins ∧ t.SameFrame t') :=
  .ofEntities (fun _ _ => rfl) (fun _ _ e => by cases e <;> rfl)
    (fun h _ => by rw [h.baseOf_eq])

/-- Fragments of interfaces. -/
theorem interfaceRound : MergeRound mergeInterface
    (fun t d => t.baseOf d.identity.idl .interface) (fun d => d.identity.source) id
    (fun d _ => Entity.addFragment d) SymbolTable.entity?
    (fun t t' => t'.mixins = t.mixins ∧ t.SameFrame t') :=
  .ofEntities (fun _ _ => rfl) (fun _ _ e => by cases e <;> rfl)
    (fun h _ => by rw [h.baseOf_eq])

/-- Includes statements. -/
theorem inclusionRound : MergeRound mergeInclusion SymbolTable.inclusionOf Inclusion.source
    Prod.fst (fun _ r => Entity.addMembers r.2.members) SymbolTable.entity?
    (fun t t' => t'.mixins = t.mixins ∧ t.SameFrame t') :=
  .ofEntities (fun _ _ => rfl) (fun _ _ e => by cases e <;> rfl)
    (fun h hmixins => h.inclusionOf_eq hmixins)

/-- A mixin with more members. -/
def Mixin.extend (d : Mixin) (members : Members) : Mixin := { d with members := d.members ++ members }

/-- Fragments of mixins. -/
theorem mixinRound : MergeRound mergeMixin (fun t d => t.baseMixin d.identity.idl)
    (fun d => d.identity.source) id (fun d _ m => m.extend d.members) (fun t i => t.mixins[i]?)
    (fun t t' => t'.slots = t.slots ∧ t.SameFrame t') where
  step {d c u c'} h := by
    obtain ⟨_, _, hget, hrest⟩ := bind_ok.mp h
    obtain ⟨rfl, rfl⟩ := get_ok.mp hget
    obtain ⟨_, _, hmerge, hcheck⟩ := bind_ok.mp hrest
    rw [checkLimit_ok hcheck]
    rcases mergeFound_ok hmerge with ⟨i, hi, rfl⟩ | ⟨issue, hissue, rfl⟩
    · refine .inl ⟨i, _, hi, rfl, ⟨rfl, SymbolTable.sameFrame_extendMixin _ i d.members⟩,
        fun x => ?_⟩
      exact Array.getElem?_modify
    · exact .inr ⟨issue, hissue, rfl⟩
  refl t := ⟨rfl, .refl t⟩
  trans h h' := ⟨h'.1.trans h.1, h.2.trans h'.2⟩
  find_eq h := by rw [h.2.baseMixin_eq]

/-! ## The stage -/

/-- What the stage makes of a table.  Includes statements add mixins as they are behind the
stage. -/
structure SymbolTable.Merged (f : Fragments) (t t' : SymbolTable) : Prop where
  frame : t.SameFrame t'
  mixins : ∀ i : Nat, t'.mixins[i]? = (t.mixins[i]?).map fun m =>
    f.mixins.foldl (fun m d =>
      changeAt (t.baseMixin d.identity.idl) id (fun _ m => m.extend d.members) i m) m
  entities : ∀ x, t'.entity? x = (t.entity? x).map fun e =>
    f.inclusions.foldl (fun e d =>
        changeAt (t'.inclusionOf d) Prod.fst (fun r => Entity.addMembers r.2.members) x e)
      (f.interfaces.foldl (fun e d =>
          changeAt (t.baseOf d.identity.idl .interface) id (fun _ => Entity.addFragment d) x e)
        (f.dictionaries.foldl (fun e d =>
          changeAt (t.baseOf d.identity.idl .dictionary) id
            (fun _ => Entity.addFields d.members) x e) e))

/-- What the stage reports: the fragments and the statements that belong nowhere, round by
round. -/
def Fragments.problems (f : Fragments) (t t' : SymbolTable) : List LocatedIssue :=
  (f.dictionaries.filterMap fun d =>
      problem? (t.baseOf d.identity.idl .dictionary) d.identity.source) ++
    (f.interfaces.filterMap fun d =>
      problem? (t.baseOf d.identity.idl .interface) d.identity.source) ++
    (f.mixins.filterMap fun d => problem? (t.baseMixin d.identity.idl) d.identity.source) ++
    f.inclusions.filterMap fun d => problem? (t'.inclusionOf d) d.source

theorem Fragments.problems_error {f : Fragments} {t t' : SymbolTable} :
    ∀ r ∈ f.problems t t', r.1.severity = .error := by
  simp only [problems, List.mem_append, List.mem_filterMap, problem?_eq_some]
  rintro r (((⟨d, _, herror, _⟩ | ⟨d, _, herror, _⟩) | ⟨d, _, herror, _⟩) | ⟨d, _, herror, _⟩)
  · exact SymbolTable.baseOf_error herror
  · exact SymbolTable.baseOf_error herror
  · exact SymbolTable.baseMixin_error herror
  · exact SymbolTable.inclusionOf_error herror

/-- Every fragment belongs somewhere. -/
structure SymbolTable.AllFound (f : Fragments) (t t' : SymbolTable) : Prop where
  interfaces : ∀ d ∈ f.interfaces, ∃ x, t.baseOf d.identity.idl .interface = .ok x
  mixins : ∀ d ∈ f.mixins, ∃ i, t.baseMixin d.identity.idl = .ok i
  inclusions : ∀ d ∈ f.inclusions, ∃ r, t'.inclusionOf d = .ok r

theorem SymbolTable.AllFound.of_problems {f : Fragments} {t t' : SymbolTable}
    (h : f.problems t t' = []) : t.AllFound f t' := by
  simp only [Fragments.problems, List.append_eq_nil_iff, List.filterMap_eq_nil_iff,
    problem?_eq_none] at h
  obtain ⟨⟨⟨_, hinterfaces⟩, hmixins⟩, hinclusions⟩ := h
  exact ⟨hinterfaces, hmixins, hinclusions⟩

theorem mergeFragments_spec {c c' : Compilation} {u : Unit} (h : mergeFragments c = .ok u c') :
    c.table.Merged c.fragments c'.table ∧
      c' = { c with
        table := c'.table
        log := c.log.reportAll (c.fragments.problems c.table c'.table)
        fragments := {} } := by
  obtain ⟨_, _, hget, hrest⟩ := bind_ok.mp h
  obtain ⟨rfl, rfl⟩ := get_ok.mp hget
  obtain ⟨_, c₀, hclear, hrest⟩ := bind_ok.mp hrest
  obtain ⟨_, c₁, hdictionaries, hrest⟩ := bind_ok.mp hrest
  obtain ⟨_, c₂, hinterfaces, hrest⟩ := bind_ok.mp hrest
  obtain ⟨_, c₃, hmixins, hinclusions⟩ := bind_ok.mp hrest
  obtain rfl := modify_ok.mp hclear
  obtain ⟨⟨hsame₁, hframe₁⟩, hstate₁, hentities₁⟩ := dictionaryRound.run hdictionaries
  obtain ⟨⟨hsame₂, hframe₂⟩, hstate₂, hentities₂⟩ := interfaceRound.run hinterfaces
  obtain ⟨⟨hslots, hframe₃⟩, hstate₃, hmixins₃⟩ := mixinRound.run hmixins
  obtain ⟨⟨hsame₄, hframe₄⟩, hstate₄, hentities₄⟩ := inclusionRound.run hinclusions
  have hframe₁₂ := hframe₁.trans hframe₂
  have hentities₃ : ∀ x, c₃.table.entity? x = c₂.table.entity? x := fun x => by
    rw [SymbolTable.entity?, SymbolTable.entity?, hslots]
  constructor
  · constructor
    · exact (hframe₁₂.trans hframe₃).trans hframe₄
    · intro i
      rw [hsame₄, hmixins₃, hsame₂, hsame₁, hframe₁₂.baseMixin_eq]
    · intro x
      rw [hentities₄, hentities₃, hentities₂, hentities₁, Option.map_map, Option.map_map,
        hframe₁.baseOf_eq, ← hframe₄.inclusionOf_eq hsame₄]
      rfl
  · rw [hframe₁.baseOf_eq] at hstate₂
    rw [hframe₁₂.baseMixin_eq] at hstate₃
    rw [← hframe₄.inclusionOf_eq hsame₄] at hstate₄
    rw [Fragments.problems, Log.reportAll_append, Log.reportAll_append, Log.reportAll_append]
    rw [hstate₄, hstate₃, hstate₂, hstate₁]

/-- Without errors every fragment belongs somewhere. -/
theorem allFound_of_mergeFragments {c c' : Compilation} {u : Unit}
    (h : mergeFragments c = .ok u c') (hclean : c'.Clean) :
    c.table.AllFound c.fragments c'.table := by
  obtain ⟨_, hstate⟩ := mergeFragments_spec h
  have hcount : c.log.errorCount + (c.fragments.problems c.table c'.table).length = 0 := by
    rw [← Log.errorCount_reportAll Fragments.problems_error, ← hclean, Compilation.errors]
    exact congrArg (fun c => c.log.errorCount) hstate.symm
  exact .of_problems (List.length_eq_zero_iff.mp (Nat.add_eq_zero_iff.mp hcount).2)

end IdlModel
