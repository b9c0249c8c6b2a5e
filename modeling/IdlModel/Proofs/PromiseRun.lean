import IdlModel.Proofs.Endings
import IdlModel.Proofs.Growth
import IdlModel.Proofs.PromiseTable

/-!
# Runs that replace promises

What the promise stage does if it reports no error.

*Settling.*  `SymbolTable.settle` replaces the promises in a type by the
interfaces that a table has recorded for them.  It is a function of the table and
not an action.  If the promises of a type are all recorded, they stay so, and the
type is settled to the same in every later table.

*One type.*  `replacePromises_spec`: a walk over a type leads to a table in which
its promises are recorded, and gives what the type is settled to there.

*All entities.*  The stage rewrites the linked entities in use one after the other.
`Progress` says that those behind are settled and those ahead are as they were
linked.
-/

namespace IdlModel

namespace SymbolTable

variable {t t' t₁ : SymbolTable} {ref u : TypeRef} {es : List TypeRef}

/-! ## Settling -/

/-- What stands for a reference whose parts are settled. -/
def settleHead (t : SymbolTable) : TypeRef → TypeRef
  | .parametrized name [element] =>
      if name = "Promise" then
        match t.promise? (t.spelling element) with
        | some made => .entity .interface made.interface
        | none => .parametrized name [element]
      else .parametrized name [element]
  | ref => ref

/-- The reference with the interfaces that are recorded for its promises in their
place, from the inside out. -/
def settle (t : SymbolTable) (ref : TypeRef) : TypeRef :=
  (ref.rebuildM (m := Id) (fun _ => pure ()) fun r => pure (t.settleHead r)).run

theorem settle_eq (t : SymbolTable) (ref : TypeRef) :
    t.settle ref = t.settleHead (ref.withParts (ref.parts.map t.settle)) :=
  TypeRef.rebuildId_eq t.settleHead ref

theorem settleHead_of_not_promise (h : ref.isPromise = false) : t.settleHead ref = ref := by
  unfold settleHead
  split
  next name element =>
    rw [if_neg]
    rintro rfl
    cases h
  next => rfl

/-- A reference that is no promise is settled part by part. -/
theorem settle_withParts (h : ref.isPromise = false) :
    t.settle ref = ref.withParts (ref.parts.map t.settle) := by
  rw [settle_eq, settleHead_of_not_promise]
  rwa [TypeRef.isPromise_withParts]

/-- A promise is settled to the interface that is recorded for its settled element. -/
theorem settle_promise {element : TypeRef} {made : PromiseInstance}
    (h : t.promise? (t.spelling (t.settle element)) = some made) :
    t.settle (.parametrized "Promise" [element]) = .entity .interface made.interface := by
  rw [settle_eq]
  show t.settleHead (.parametrized "Promise" [t.settle element]) = _
  simp only [settleHead, if_true, h]

/-- A part that is no promise, or one whose element has an interface. -/
def IsRecordedPart (t : SymbolTable) (ref : TypeRef) : Prop :=
  ref.isPromise = true → ∃ element made, ref = .parametrized "Promise" [element] ∧
    t.Knows (t.settle element) ∧ t.promise? (t.spelling (t.settle element)) = some made

/-- A type whose promises are recorded. -/
def Recorded (t : SymbolTable) (ref : TypeRef) : Prop := ref.Everywhere t.IsRecordedPart

/-- A type is settled to the same in a later table if its promises are recorded. -/
theorem Recorded.later (h : t.Recorded ref) (hidentifies : t.Identifies t')
    (hpromises : ∀ key made, t.promise? key = some made → t'.promise? key = some made) :
    t'.settle ref = t.settle ref ∧ t'.Recorded ref := by
  induction ref using TypeRef.partsInduction with
  | step ref ih =>
    have hparts : ref.parts.map t'.settle = ref.parts.map t.settle :=
      List.map_congr_left fun u hu => (ih u hu (h.part hu)).1
    cases hpromise : ref.isPromise with
    | false =>
        refine ⟨by rw [settle_withParts hpromise, settle_withParts hpromise, hparts], ?_⟩
        refine TypeRef.everywhere_iff.mpr ⟨fun heq => ?_, fun u hu => (ih u hu (h.part hu)).2⟩
        rw [hpromise] at heq
        cases heq
    | true =>
        obtain ⟨element, made, rfl, hknown, hmade⟩ := h.self hpromise
        obtain ⟨hsame, _⟩ := ih element (List.mem_singleton_self _)
          (h.part (List.mem_singleton_self _))
        have hmade' : t'.promise? (t'.spelling (t'.settle element)) = some made := by
          rw [hsame, hidentifies.spelling_eq hknown]
          exact hpromises _ _ hmade
        refine ⟨by rw [settle_promise hmade, settle_promise hmade'], ?_⟩
        refine TypeRef.everywhere_iff.mpr ⟨fun _ => ?_, fun u hu => (ih u hu (h.part hu)).2⟩
        exact ⟨element, made, rfl, hsame ▸ hidentifies.knows hknown, hmade'⟩

/-- What a type is settled to, as far as the names in the linked table `t₁` tell
elements apart. -/
def Settles (t₁ t : SymbolTable) (ref u : TypeRef) : Prop :=
  t₁.HasIdentifiers → u = t.settle ref ∧ t.Recorded ref

theorem Settles.later (h : Settles t₁ t ref u) (hidentifies : t.Identifies t')
    (hpromises : t₁.HasIdentifiers → ∀ key made, t.promise? key = some made →
      t'.promise? key = some made) : Settles t₁ t' ref u := by
  intro hid
  obtain ⟨rfl, hrecorded⟩ := h hid
  obtain ⟨hsame, hrecorded'⟩ := hrecorded.later hidentifies (hpromises hid)
  exact ⟨hsame.symm, hrecorded'⟩

theorem Settles.parts {us : List TypeRef} (hpromise : ref.isPromise = false)
    (h : List.Forall₂ (Settles t₁ t) ref.parts us) : Settles t₁ t ref (ref.withParts us) := by
  intro hid
  have heach : List.Forall₂ (fun s u => u = t.settle s ∧ t.Recorded s) ref.parts us :=
    h.imp fun _ _ hs => hs hid
  have hus : us = ref.parts.map t.settle := by
    rw [← List.forall₂_eq_eq_eq, List.forall₂_map_right_iff]
    exact heach.flip.imp fun _ _ hs => hs.1
  refine ⟨by rw [settle_withParts hpromise, hus], TypeRef.everywhere_iff.mpr ⟨fun heq => ?_, ?_⟩⟩
  · rw [hpromise] at heq
    cases heq
  · intro s hs
    obtain ⟨_, _, hrecorded⟩ := forall₂_right heach.flip s hs
    exact hrecorded.2

theorem Settles.promise {element : TypeRef} {made : PromiseInstance}
    (h : Settles t₁ t element u) (hknows : t.Knows u)
    (hmade : t.promise? (t.spelling u) = some made) :
    Settles t₁ t (.parametrized "Promise" [element]) (.entity .interface made.interface) := by
  intro hid
  obtain ⟨rfl, hrecorded⟩ := h hid
  refine ⟨(settle_promise hmade).symm, TypeRef.everywhere_iff.mpr ⟨fun _ => ?_, fun s hs => ?_⟩⟩
  · exact ⟨element, made, rfl, hknows, hmade⟩
  · rw [List.mem_singleton.mp hs]
    exact hrecorded

end SymbolTable

/-! ## One promise -/

section Promise

variable {t₁ : SymbolTable} {es : List TypeRef} {u : TypeRef} {c : Compilation}
  (package : String) (at_ : Location)

theorem run_promiseOf (u : TypeRef) (c : Compilation) :
    (promiseOf package at_ u).run c =
      match c.table.promise? (c.table.spelling u) with
      | some made => (some made.interface, { c with table := c.table.mark made.interface })
      | none =>
          if isRefusedElement u then
            (none, c.report (.unsupportedPromiseElement (c.table.spelling u)) at_)
          else
            (some (SymbolTable.promiseAt c.table.size).interface,
              (c.makePromise package at_ (c.table.spelling u) u).1) := by
  unfold promiseOf
  rw [StateT.run_bind]
  show StateT.run (match c.table.promise? (c.table.spelling u) with | some _ => _ | none => _) c = _
  split
  next => rfl
  next =>
    split
    next => rfl
    next => rfl

/-- What a relation has to hold along to hold along the replacing of promises. -/
structure Replaces (R : Compilation → Compilation → Prop) : Prop where
  refl : ∀ c, R c c
  trans : ∀ ⦃c c' c''⦄, R c c' → R c' c'' → R c c''
  report : ∀ c issue at_, R c (c.report issue at_)
  mark : ∀ c x, R c { c with table := c.table.mark x }
  make : ∀ c package at_ key element, R c (c.makePromise package at_ key element).1

section Replaces

variable {R : Compilation → Compilation → Prop}

theorem Replaces.promiseOf (h : Replaces R) (u : TypeRef) :
    Leads R (promiseOf package at_ u) := by
  intro c
  rw [run_promiseOf]
  split
  next made _ => exact h.mark c made.interface
  next =>
    split
    next => exact h.report c _ _
    next => exact h.make c _ _ _ _

theorem Replaces.replacePromise (h : Replaces R) (ref : TypeRef) :
    Leads R (replacePromise package at_ ref) := by
  unfold IdlModel.replacePromise
  split
  · split
    · split
      · refine .bind h.trans (h.promiseOf package at_ _) fun answer => ?_
        split
        · exact .pure h.refl _
        · exact .pure h.refl _
      · exact .bind h.trans (.update fun c => h.report c _ _) fun _ => .pure h.refl _
    · exact .pure h.refl _
  · exact .pure h.refl _

/-- A relation that holds along single promises holds along the promises in a type. -/
theorem Replaces.replacePromises (h : Replaces R) (ref : TypeRef) :
    Leads R (replacePromises package at_ ref) :=
  .rebuildM h.trans h.refl (fun _ => .pure h.refl _) (h.replacePromise package at_) ref

end Replaces

theorem replaces_errors : Replaces fun c c' => c.errors ≤ c'.errors where
  refl c := Nat.le_refl c.errors
  trans _ _ _ := Nat.le_trans
  report c issue at_ := c.errors_le_report issue at_
  mark c _ := Nat.le_refl c.errors
  make c _ _ _ _ := Nat.le_refl c.errors

theorem grows_promiseOf (u : TypeRef) : Grows Compilation.errors (promiseOf package at_ u) :=
  replaces_errors.promiseOf package at_ u

/-- What a promise leads to if no error is reported. -/
structure Promised (t₁ : SymbolTable) (u : TypeRef) (c : Compilation)
    (run : Option EntityId × Compilation) (es : List TypeRef) (made : PromiseInstance) : Prop where
  answer : run.1 = some made.interface
  table : SymbolTable.Made t₁ es run.2.table
  grown : SymbolTable.Grown t₁ c.table run.2.table
  recorded : run.2.table.promise? (run.2.table.spelling u) = some made

/-- An element has an interface, unless there is an error. -/
theorem promiseOf_spec (ht₁ : t₁.Resolved) (h : SymbolTable.Made t₁ es c.table)
    (hu : t₁.IsElement c.table.size u) (hclean : ((promiseOf package at_ u).run c).2.Clean) :
    ∃ es' made, Promised t₁ u c ((promiseOf package at_ u).run c) es' made := by
  rw [run_promiseOf] at hclean ⊢
  split at hclean
  next made hmade =>
    -- The interface has been in use since it was made.
    obtain ⟨i, v, hv, rfl, _⟩ := h.recorded _ made hmade
    obtain ⟨_, _, hused, _⟩ := (h.groups i v hv).interface
    have hmark : c.table.mark ⟨t₁.place i⟩ = c.table := SymbolTable.mark_of_isInUse hused
    refine ⟨es, _, rfl, ?_, ?_, ?_⟩
    · exact hmark.symm ▸ h
    · exact hmark.symm ▸ .refl t₁ c.table
    · exact hmark.symm ▸ hmade
  next hnone =>
    split at hclean
    next => exact absurd hclean (Compilation.not_clean_report rfl _ _)
    next hrefused =>
      have hextended := SymbolTable.makePromise_extended package at_ (h.knows hu.swapStrings)
      obtain ⟨hmade, hgrown⟩ := h.extend ht₁ hu hnone hextended
      rw [if_neg hrefused]
      refine ⟨es ++ [u], _, rfl, hmade, hgrown, ?_⟩
      rw [hextended.promise, hextended.identifies.spelling_eq (h.knows hu), if_pos (.inl rfl)]

/-! ## One type -/

theorem replacePromise_of_not_promise {ref : TypeRef} (h : ref.isPromise = false) :
    replacePromise package at_ ref = pure ref := by
  unfold replacePromise
  split
  next name args =>
    rw [if_neg]
    rintro rfl
    cases h
  next => rfl

theorem run_replacePromise (u : TypeRef) (c : Compilation) :
    (replacePromise package at_ (.parametrized "Promise" [u])).run c =
      (match ((promiseOf package at_ u).run c).1 with
        | some id => .entity .interface id
        | none => .parametrized "Promise" [u], ((promiseOf package at_ u).run c).2) := by
  simp only [replacePromise, if_true]
  rw [StateT.run_bind]
  show StateT.run (match ((promiseOf package at_ u).run c).1 with | some _ => _ | none => _) _ = _
  cases ((promiseOf package at_ u).run c).1 with
  | some _ => rfl
  | none => rfl

/-- A promise that has not one argument is an error. -/
theorem not_clean_replacePromise {us : List TypeRef} (h : us.length ≠ 1) (c : Compilation) :
    ¬ ((replacePromise package at_ (.parametrized "Promise" us)).run c).2.Clean := by
  simp only [replacePromise, if_true]
  split
  next => exact absurd rfl h
  next => exact Compilation.not_clean_report rfl c at_

theorem grows_replacePromise (ref : TypeRef) :
    Grows Compilation.errors (replacePromise package at_ ref) :=
  replaces_errors.replacePromise package at_ ref

/-- What a linked type is made of whose names were no builtin types. -/
def SymbolTable.IsOpen (t₁ : SymbolTable) (ref : TypeRef) : Prop :=
  ref.Everywhere fun s => t₁.IsLinkedPart s ∧ t₁.IsFreePart s

theorem SymbolTable.isElementPart_of_linked {bound : Nat} {ref : TypeRef}
    (hlinked : t₁.IsLinkedPart ref) (hfree : t₁.IsFreePart ref) (hpromise : ref.isPromise = false) :
    t₁.IsElementPart bound ref := by
  cases ref with
  | unlinked _ => exact hlinked.elim
  | placeholder _ => exact hlinked.elim
  | entity _ _ => exact .inl ⟨hlinked.1, hlinked.2, hfree⟩
  | parametrized name _ => exact ⟨hlinked, beq_eq_false_iff_ne.mp hpromise⟩
  | _ => trivial

/-- The interface of a promise can be in an element. -/
theorem SymbolTable.Made.isElement_interface {t : SymbolTable} (h : Made t₁ es t) {key : String}
    {made : PromiseInstance} (hmade : t.promise? key = some made) :
    t₁.IsElement t.size (.entity .interface made.interface) := by
  obtain ⟨i, v, hv, rfl, _⟩ := h.recorded key made hmade
  refine TypeRef.everywhere_iff.mpr ⟨.inr ⟨rfl, ?_, i, rfl⟩, by simp [TypeRef.parts]⟩
  have hplace : t₁.place i + 3 ≤ t.size := h.size ▸ place_lt (lt_length_of_getElem? hv)
  exact Nat.lt_of_lt_of_le (Nat.lt_add_of_pos_right (by decide)) hplace

/-- What is known of a type and what it was rebuilt to. -/
def Replaced (t₁ : SymbolTable) (ref u : TypeRef) (c : Compilation) : Prop :=
  c.Clean → t₁.IsElement c.table.size u ∧ t₁.Settles c.table ref u

/-- A promise with a rebuilt element is replaced. -/
theorem replacePromise_spec (ht₁ : t₁.Resolved) {element : TypeRef}
    (hc : c.Clean → ∃ es, t₁.Made es c.table) (h : Replaced t₁ element u c)
    (hclean : ((replacePromise package at_ (.parametrized "Promise" [u])).run c).2.Clean) :
    let run := (replacePromise package at_ (.parametrized "Promise" [u])).run c
    ∃ es, t₁.Made es run.2.table ∧ t₁.Grown c.table run.2.table ∧
      t₁.IsElement run.2.table.size run.1 ∧
      t₁.Settles run.2.table (.parametrized "Promise" [element]) run.1 := by
  intro run
  have hrun : run = _ := run_replacePromise package at_ u c
  rw [run_replacePromise] at hclean
  have hbefore : c.Clean := Compilation.Clean.of_le hclean (grows_promiseOf package at_ u c)
  obtain ⟨es, hmade⟩ := hc hbefore
  obtain ⟨helement, hsettles⟩ := h hbefore
  obtain ⟨es', made, hpromised⟩ := promiseOf_spec package at_ ht₁ hmade helement hclean
  rw [hpromised.answer] at hrun
  rw [hrun]
  refine ⟨es', hpromised.table, hpromised.grown, ?_, ?_⟩
  · exact hpromised.table.isElement_interface hpromised.recorded
  · have hlater := hsettles.later hpromised.grown.identifies hpromised.grown.promises
    have hknows := hpromised.grown.identifies.knows (hmade.knows helement)
    exact hlater.promise hknows hpromised.recorded

/-- The walk over a type, as long as no error is reported. -/
theorem replacePromise_rule (ht₁ : t₁.Resolved) :
    TypeRef.RebuildRule (fun _ => pure ()) (replacePromise package at_)
      (fun c => c.Clean → ∃ es, t₁.Made es c.table)
      (fun c c' => c.errors ≤ c'.errors ∧ (c'.Clean → t₁.Grown c.table c'.table))
      t₁.IsOpen (fun _ _ => True) (Replaced t₁) where
  refl c _ := ⟨Nat.le_refl _, fun _ => .refl t₁ c.table⟩
  trans h h' := ⟨Nat.le_trans h.1 h'.1, fun hclean => (h.2 (hclean.of_le h'.1)).trans (h'.2 hclean)⟩
  pre_part h hu := h.part hu
  entered_leads _ _ := trivial
  post_leads := by
    rintro ref u c c' ⟨hle, hgrown⟩ h hclean
    obtain ⟨helement, hsettles⟩ := h (hclean.of_le hle)
    have hgrown := hgrown hclean
    exact ⟨helement.mono hgrown.size_le, hsettles.later hgrown.identifies hgrown.promises⟩
  enter := by
    intro ref c hc _
    exact ⟨hc, ⟨Nat.le_refl _, fun _ => .refl t₁ c.table⟩, trivial⟩
  leave := by
    intro ref us c hc hopen _ hparts
    have heach : c.Clean → List.Forall₂ (fun s u => t₁.IsElement c.table.size u ∧
        t₁.Settles c.table s u) ref.parts us := fun hclean => hparts.imp fun _ _ h => h hclean
    have hgrows := grows_replacePromise package at_ (ref.withParts us) c
    cases hpromise : ref.isPromise with
    | false =>
        rw [replacePromise_of_not_promise package at_ (by rw [TypeRef.isPromise_withParts, hpromise])]
        refine ⟨hc, ⟨Nat.le_refl _, fun _ => .refl t₁ c.table⟩, fun hclean => ⟨?_, ?_⟩⟩
        · refine TypeRef.everywhere_withParts hparts.length_eq.symm ?_ fun u hu => ?_
          · obtain ⟨hlinked, hfree⟩ := hopen.self
            exact (SymbolTable.isElementPart_of_linked hlinked hfree hpromise).withParts us
          · obtain ⟨_, _, helement, _⟩ := forall₂_right (heach hclean) u hu
            exact helement
        · exact .parts hpromise ((heach hclean).imp fun _ _ h => h.2)
    | true =>
        obtain ⟨args, rfl⟩ := TypeRef.isPromise_eq_true.mp hpromise
        by_cases harity : us.length = 1
        · obtain ⟨u, rfl⟩ := List.length_eq_one_iff.mp harity
          obtain ⟨element, rfl⟩ := List.length_eq_one_iff.mp (hparts.length_eq.trans harity)
          have hspec := replacePromise_spec package at_ ht₁ hc (List.forall₂_cons.mp hparts).1
          refine ⟨fun hclean => ?_, ⟨hgrows, fun hclean => ?_⟩, fun hclean => ?_⟩
          · obtain ⟨es, hmade, _⟩ := hspec hclean
            exact ⟨es, hmade⟩
          · obtain ⟨_, _, hgrown, _⟩ := hspec hclean
            exact hgrown
          · obtain ⟨_, _, _, hreplaced⟩ := hspec hclean
            exact hreplaced
        · have hnot := not_clean_replacePromise package at_ harity c
          exact ⟨fun hclean => absurd hclean hnot, ⟨hgrows, fun hclean => absurd hclean hnot⟩,
            fun hclean => absurd hclean hnot⟩

/-- What is known of a type of a linked entity and what it became. -/
structure Settled (t₁ t : SymbolTable) (ref u : TypeRef) : Prop where
  element : t₁.IsElement t.size u ∨
    ∃ kind id, u = .entity kind id ∧ t₁.kind? id = some kind ∧ t₁.isInUse id = true
  settles : t₁.Settles t ref u

theorem Settled.later {t t' : SymbolTable} {ref : TypeRef} (h : Settled t₁ t ref u)
    (hsize : t.size ≤ t'.size) (hidentifies : t.Identifies t')
    (hpromises : t₁.HasIdentifiers → ∀ key made, t.promise? key = some made →
      t'.promise? key = some made) : Settled t₁ t' ref u :=
  ⟨h.element.imp_left fun helement => helement.mono hsize, h.settles.later hidentifies hpromises⟩

theorem Settled.grown {t t' : SymbolTable} {ref : TypeRef} (h : Settled t₁ t ref u)
    (hgrown : t₁.Grown t t') : Settled t₁ t' ref u :=
  h.later hgrown.size_le hgrown.identifies hgrown.promises

/-- The walk over the types of an entity. -/
theorem replacePromises_rule (ht₁ : t₁.Resolved) :
    WalkRule (replacePromises package) (fun c => c.Clean → ∃ es, t₁.Made es c.table)
      (fun c c' => c.errors ≤ c'.errors ∧ (c'.Clean → t₁.Grown c.table c'.table))
      (fun ref => t₁.Linked ref ∧
        ((∃ kind id, ref = .entity kind id) ∨ ref.Everywhere t₁.IsFreePart))
      (fun ref u c => c.Clean → Settled t₁ c.table ref u) where
  refl c _ := ⟨Nat.le_refl _, fun _ => .refl t₁ c.table⟩
  trans h h' := ⟨Nat.le_trans h.1 h'.1, fun hclean => (h.2 (hclean.of_le h'.1)).trans (h'.2 hclean)⟩
  post_leads := by
    rintro ref u c c' ⟨hle, hgrown⟩ h hclean
    exact (h (hclean.of_le hle)).grown (hgrown hclean)
  step := by
    rintro at_ ref c hc ⟨hlinked, ⟨kind, id, rfl⟩ | hfree⟩
    · refine ⟨hc, ⟨Nat.le_refl _, fun _ => .refl t₁ c.table⟩, fun _ => ⟨.inr ?_, ?_⟩⟩
      · exact ⟨kind, id, rfl, hlinked.self⟩
      · have hnone : List.Forall₂ (t₁.Settles c.table) (TypeRef.entity kind id).parts [] := .nil
        exact .parts rfl hnone
    · have hopen : t₁.IsOpen ref := fun s hs => ⟨hlinked s hs, hfree s hs⟩
      obtain ⟨hmade, hleads, hreplaced⟩ := (replacePromise_rule package at_ ht₁).run hopen hc
      refine ⟨hmade, hleads, fun hclean => ?_⟩
      obtain ⟨helement, hsettles⟩ := hreplaced hclean
      exact ⟨.inl helement, hsettles⟩

end Promise

/-! ## All entities -/

/-- The compilation with the promises of an entity settled. -/
def Compilation.withSettled (c : Compilation) (id : EntityId) (e : Entity) : Compilation :=
  let run := (e.mapTypesM (replacePromises e.identity.package)).run c
  { run.2 with table := run.2.table.set id run.1 }

theorem settlePromises_run (id : EntityId) (c : Compilation) :
    settlePromises id c =
      match c.table.entity? id with
      | none => checkLimit c
      | some e => checkLimit (c.withSettled id e) := by
  change (match c.table.entity? id with | none => _ | some e => _ : CompileM Unit) c = _
  cases c.table.entity? id with
  | none => rfl
  | some e => rfl

namespace Replaces

variable {R : Compilation → Compilation → Prop} (h : Replaces R)
  (hput : ∀ ⦃c c' id e e'⦄, R c c' → c.table.entity? id = some e → e'.blank = e.blank →
    R c { c' with table := c'.table.set id e' })
include h hput

/-- The entity is put back as it was, but for its types. -/
theorem withSettled {c : Compilation} {id : EntityId} {e : Entity}
    (he : c.table.entity? id = some e) : R c (c.withSettled id e) := by
  have hwalk := Leads.mapTypesM h.trans h.refl (h.replacePromises e.identity.package) e c
  exact hput hwalk he ((e.blank_mapTypesM (IdlModel.replacePromises e.identity.package)).run c)

theorem settlePromises (id : EntityId) : EndsAlong R (settlePromises id) := by
  intro c
  rw [settlePromises_run]
  cases he : c.table.entity? id with
  | none =>
      rw [endState_checkLimit]
      exact h.refl c
  | some e =>
      rw [endState_checkLimit]
      exact h.withSettled hput he

/-- A relation that holds along single promises, and along putting an entity back, holds along
the stage. -/
theorem instantiatePromises : EndsAlong R instantiatePromises :=
  .get_bind fun c => EndsAlong.forM h.trans h.refl (fun id _ => h.settlePromises hput id) c

end Replaces

section Progress

variable {t₁ : SymbolTable} {es : List TypeRef} {x : EntityId} {waiting : List EntityId}
  {c c' : Compilation} {u : Unit}

/-- The stage stores the rebuilt entity. -/
theorem settlePromises_ok {e : Entity} (he : c.table.entity? x = some e)
    (h : settlePromises x c = .ok u c') :
    let run := (e.mapTypesM (replacePromises e.identity.package)).run c
    c' = { run.2 with table := run.2.table.set x run.1 } := by
  rw [settlePromises_run, he] at h
  exact checkLimit_ok h

theorem keeps_settlePromises (n : Nat) (x : EntityId) :
    Keeps (fun c : Compilation => n ≤ c.errors) (settlePromises x) := by
  intro c hc u c' h
  have hgrown := replaces_errors.settlePromises (fun _ _ _ _ _ hle _ _ => hle) x c
  rw [h] at hgrown
  exact Nat.le_trans hc hgrown

/-- The promises of the linked entities in use are replaced, but for those of the
entities that wait. -/
structure Progress (t₁ : SymbolTable) (waiting : List EntityId) (es : List TypeRef)
    (t : SymbolTable) : Prop where
  made : t₁.Made es t
  ahead : ∀ x, x.index < t₁.size → (x ∈ waiting ∨ t₁.isInUse x = false) →
    t.entity? x = t₁.entity? x
  behind : ∀ x e₁, t₁.isInUse x = true → x ∉ waiting → t₁.entity? x = some e₁ →
    ∃ e, t.entity? x = some e ∧ e₁.Rebuilt (Settled t₁ t) e

/-- Before the stage all entities in use wait. -/
theorem Progress.start (ht₁ : t₁.Resolved) : Progress t₁ t₁.idsInUse [] t₁ where
  made := .start ht₁
  ahead _ _ _ := rfl
  behind x _ hused hx := absurd ((t₁.mem_idsInUse x).mpr hused) hx

/-- One entity. -/
theorem Progress.step (ht₁ : t₁.Resolved) (hused : t₁.isInUse x = true) (hx : x ∉ waiting)
    (h : Progress t₁ (x :: waiting) es c.table) (hrun : settlePromises x c = .ok u c')
    (hclean : c'.Clean) : ∃ es', Progress t₁ waiting es' c'.table := by
  obtain ⟨e₁, he₁⟩ := SymbolTable.entity?_of_lt (SymbolTable.lt_of_isInUse hused)
  have he := (h.ahead x (SymbolTable.lt_of_isInUse hused) (.inl List.mem_cons_self)).trans he₁
  obtain ⟨hmade, ⟨_, hgrown⟩, hrebuilt⟩ :=
    (replacePromises_rule e₁.identity.package ht₁).run (ht₁.types x e₁ hused he₁)
      (fun _ => ⟨es, h.made⟩)
  obtain rfl := settlePromises_ok he hrun
  have hgrown := hgrown hclean
  obtain ⟨es', hmade⟩ := hmade hclean
  have he' := hgrown.entities x e₁ he
  have hidentifies := SymbolTable.identifies_set he' hrebuilt.blank
  refine ⟨es', hmade.set (SymbolTable.lt_of_isInUse hused) he' hrebuilt.blank, ?_, ?_⟩
  · intro y hy hwaiting
    have hne : y ≠ x := by
      rintro rfl
      exact hwaiting.elim hx (by simp [hused])
    obtain ⟨e, hbefore⟩ := SymbolTable.entity?_of_lt hy
    have := h.ahead y hy (hwaiting.imp_left (List.mem_cons_of_mem x))
    rw [SymbolTable.entity?_set_of_ne _ hne, hbefore]
    exact hgrown.entities y e (this.trans hbefore)
  · intro y d₁ hy hwaiting hd₁
    by_cases hne : y = x
    · subst hne
      obtain rfl := Option.some.inj (hd₁.symm.trans he₁)
      refine ⟨_, SymbolTable.entity?_set_self (SymbolTable.lt_of_entity? he') _, ?_⟩
      exact hrebuilt.imp fun ref u hsettled =>
        (hsettled hclean).later (Nat.le_of_eq (SymbolTable.size_set _ _ _).symm) hidentifies
          fun _ _ _ hmade => hmade
    · have hnot : y ∉ x :: waiting := fun hmem => (List.mem_cons.mp hmem).elim hne hwaiting
      obtain ⟨d, hd, hsettled⟩ := h.behind y d₁ hy hnot hd₁
      refine ⟨d, (SymbolTable.entity?_set_of_ne _ hne _).trans (hgrown.entities y d hd), ?_⟩
      exact hsettled.imp fun ref u hsettled =>
        (hsettled.grown hgrown).later (Nat.le_of_eq (SymbolTable.size_set _ _ _).symm) hidentifies
          fun _ _ _ hmade => hmade

/-- All entities of a list. -/
theorem Progress.forM (ht₁ : t₁.Resolved) (hnodup : waiting.Nodup)
    (hused : ∀ x ∈ waiting, t₁.isInUse x = true) (h : Progress t₁ waiting es c.table)
    (hrun : waiting.forM settlePromises c = .ok u c') (hclean : c'.Clean) :
    ∃ es', Progress t₁ [] es' c'.table := by
  induction waiting generalizing c es with
  | nil =>
    obtain ⟨_, rfl⟩ := pure_ok.mp hrun
    exact ⟨es, h⟩
  | cons x waiting ih =>
    obtain ⟨c₁, hfirst, hrest⟩ := forM_cons_ok.mp hrun
    obtain ⟨hx, hnodup⟩ := List.nodup_cons.mp hnodup
    have hclean₁ : c₁.Clean := hclean.of_le <|
      Keeps.forM (fun y _ => keeps_settlePromises c₁.errors y) c₁ (Nat.le_refl _) _ _ hrest
    obtain ⟨es', h'⟩ := h.step ht₁ (hused x List.mem_cons_self) hx hfirst hclean₁
    exact ih hnodup (fun y hy => hused y (List.mem_cons_of_mem x hy)) h' hrest

end Progress

/-- What the stage leads to if it reports no error. -/
theorem instantiatePromises_spec {c c' : Compilation} {u : Unit} (hc : c.table.Resolved)
    (h : instantiatePromises c = .ok u c') (hclean : c'.Clean) :
    ∃ es, Progress c.table [] es c'.table := by
  obtain ⟨c₁, _, hget, hrun⟩ := bind_ok.mp h
  obtain ⟨rfl, rfl⟩ := get_ok.mp hget
  exact (Progress.start hc).forM hc (SymbolTable.nodup_idsInUse _)
    (fun x hx => (SymbolTable.mem_idsInUse _ x).mp hx) hrun hclean

end IdlModel
