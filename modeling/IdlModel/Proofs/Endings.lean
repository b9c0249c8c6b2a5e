import IdlModel.Proofs.Runs

/-!
# Endings

What holds of the state in which a run ends, whether it finishes or stops.

*Actions.*  An action *ends along* a relation between states if each of its runs ends in a state
that is related to the one it starts in.  If the relation is reflexive and transitive, an action
that is made of such actions is one too, for a run that stops early has gone through some of
them.

*Declaring.*  To declare documents is to report issues, to put fragments aside and to enter
entities, mixins and typedefs.  A relation that holds along these holds along it: `Declares`.
-/

namespace IdlModel

/-- Every run of an action ends in a state that is related to its first one. -/
def EndsAlong {ε σ α : Type} (R : σ → σ → Prop) (action : EStateM ε σ α) : Prop :=
  ∀ s, R s (endState (action s))

namespace EndsAlong

variable {ε σ α β : Type} {R : σ → σ → Prop}

theorem update {f : σ → σ} (h : ∀ s, R s (f s)) : EndsAlong R (modify f : EStateM ε σ PUnit) := h

/-- An action that reads the state first. -/
theorem get_bind {f : σ → EStateM ε σ β} (h : ∀ s, R s (endState (f s s))) :
    EndsAlong R (get >>= f) := h

theorem pure (hrefl : ∀ s, R s s) (a : α) : EndsAlong R (Pure.pure a : EStateM ε σ α) :=
  fun s => hrefl s

theorem throw (hrefl : ∀ s, R s s) (e : ε) :
    EndsAlong R (MonadExcept.throw e : EStateM ε σ α) :=
  fun s => hrefl s

variable (htrans : ∀ ⦃s₁ s₂ s₃⦄, R s₁ s₂ → R s₂ s₃ → R s₁ s₃)
include htrans

theorem bind {x : EStateM ε σ α} {f : α → EStateM ε σ β} (hx : EndsAlong R x)
    (hf : ∀ a, EndsAlong R (f a)) : EndsAlong R (x >>= f) := by
  intro s
  have hfirst := hx s
  cases hrun : x s with
  | ok a s₁ =>
      rw [hrun] at hfirst
      rw [bind_run hrun]
      exact htrans hfirst (hf a s₁)
  | error e s₁ =>
      rw [hrun] at hfirst
      rw [bind_error hrun]
      exact hfirst

theorem forM (hrefl : ∀ s, R s s) {f : α → EStateM ε σ PUnit} {as : List α}
    (h : ∀ a ∈ as, EndsAlong R (f a)) : EndsAlong R (as.forM f) := by
  induction as with
  | nil => exact pure hrefl _
  | cons a as ih =>
    obtain ⟨hfirst, hrest⟩ := List.forall_mem_cons.mp h
    rw [List.forM_eq_forM, List.forM_cons, ← List.forM_eq_forM]
    exact bind htrans hfirst fun _ => ih hrest

end EndsAlong

/-- What holds at every end holds if the action finishes. -/
theorem EndsAlong.keeps {ε σ α : Type} {P : σ → Prop} {x : EStateM ε σ α}
    (h : EndsAlong (fun s s' => P s → P s') x) : Keeps P x := by
  intro s hs a s' hrun
  have hend := h s hs
  rwa [hrun] at hend

theorem endState_checkLimit (c : Compilation) : endState (checkLimit c) = c := by
  rw [checkLimit_run]
  split <;> rfl

/-- A poll leads nowhere. -/
theorem endsAlong_checkLimit {R : Compilation → Compilation → Prop} (hrefl : ∀ c, R c c) :
    EndsAlong R checkLimit := fun c => by
  rw [endState_checkLimit]
  exact hrefl c

/-- A change, and then a poll. -/
theorem endsAlong_polled {R : Compilation → Compilation → Prop} (hrefl : ∀ c, R c c)
    (htrans : ∀ ⦃c c' c''⦄, R c c' → R c' c'' → R c c'') {f : Compilation → Compilation}
    (h : ∀ c, R c (f c)) : EndsAlong R (do modify f; checkLimit) :=
  .bind htrans (.update h) fun _ => endsAlong_checkLimit hrefl

theorem endState_withLinker (action : EStateM Stop Linker Unit) (c : Compilation) :
    endState (withLinker action c) = (endState (action { compilation := c })).compilation := by
  unfold withLinker
  cases action { compilation := c } <;> rfl

/-- A fold of changes that lead along a relation. -/
theorem foldl_leads {σ α : Type} {R : σ → σ → Prop} (hrefl : ∀ s, R s s)
    (htrans : ∀ ⦃s₁ s₂ s₃⦄, R s₁ s₂ → R s₂ s₃ → R s₁ s₃) {f : σ → α → σ} {as : List α}
    (h : ∀ a ∈ as, ∀ s, R s (f s a)) (s : σ) : R s (as.foldl f s) := by
  induction as generalizing s with
  | nil => exact hrefl s
  | cons a as ih =>
    obtain ⟨hfirst, hrest⟩ := List.forall_mem_cons.mp h
    exact htrans (hfirst s) (ih hrest (f s a))

/-! ## Declaring -/

/-- What a relation has to hold along to hold along the declaring of documents. -/
structure Declares (R : Compilation → Compilation → Prop) : Prop where
  refl : ∀ c, R c c
  trans : ∀ ⦃c c' c''⦄, R c c' → R c' c'' → R c c''
  report : ∀ c issue at_, R c (c.report issue at_)
  aside : ∀ c fragments, R c { c with fragments }
  entity : ∀ c e t, e.identity.template = none → c.table.insert e = .ok t → R c { c with table := t }
  mixin : ∀ c d t, c.table.insertMixin d = .ok t → R c { c with table := t }
  typedef : ∀ c d t, c.table.insertTypedef d = .ok t → R c { c with table := t }

namespace Declares

variable {R : Compilation → Compilation → Prop} (h : Declares R)
include h

theorem reportAll (issues : List LocatedIssue) (c : Compilation) : R c (c.reportAll issues) :=
  foldl_leads h.refl h.trans (fun issue _ c => h.report c issue.1 issue.2) c

theorem declared {c : Compilation} {attempt : Except Location SymbolTable}
    (hentered : ∀ t, attempt = .ok t → R c { c with table := t }) (name : String)
    (at_ : Location) : R c (c.declared name at_ attempt) := by
  cases attempt with
  | error previous => exact h.report c _ at_
  | ok t => exact hentered t rfl

theorem declareEntity {e : Entity} (he : e.identity.template = none) (c : Compilation) :
    R c (c.declareEntity e) :=
  h.declared (fun t => h.entity c e t he) _ _

theorem declareEnumeration (file : String) (d : Syntax.EnumerationDecl) (c : Compilation) :
    R c (c.declareEnumeration file d) := by
  have hannotations := h.reportAll (annotationReports ⟨file, d.line.toNat⟩ d.annotations) c
  have hrepeated := h.reportAll ((splitRepeated [] d.values).2.map fun v =>
    (.duplicateEnumValue d.name v, ⟨file, d.line.toNat⟩))
  exact h.trans (h.trans hannotations (hrepeated _)) (h.declareEntity rfl _)

theorem declareInterface (file : String) (d : Syntax.InterfaceDecl) (c : Compilation) :
    R c (c.declareInterface file d) := by
  have hreported := h.reportAll (Compilation.interfaceOf file (c.packageOf file) d).2 c
  unfold Compilation.declareInterface
  dsimp only
  split
  next => exact h.trans hreported (h.report ..)
  next =>
    split
    · exact h.trans hreported (h.aside ..)
    · exact h.trans hreported (h.declareEntity rfl _)

theorem declareMixin (file : String) (d : Syntax.MixinDecl) (c : Compilation) :
    R c (c.declareMixin file d) := by
  unfold Compilation.declareMixin
  dsimp only
  split
  · exact h.trans (h.reportAll _ c) (h.aside ..)
  · exact h.trans (h.reportAll _ c) (h.declared (fun t => h.mixin _ _ t) _ _)

theorem declareDictionary (file : String) (d : Syntax.DictionaryDecl) (c : Compilation) :
    R c (c.declareDictionary file d) := by
  have hreported := h.reportAll (annotationReports ⟨file, d.line.toNat⟩ d.annotations) c
  unfold Compilation.declareDictionary
  dsimp only
  split
  · exact h.trans hreported (h.aside ..)
  · exact h.trans hreported (h.declareEntity rfl _)

theorem declareCallback (file : String) (d : Syntax.CallbackDecl) (c : Compilation) :
    R c (c.declareCallback file d) :=
  h.trans (h.reportAll _ c) (h.declareEntity rfl _)

theorem declareTypedef (file : String) (d : Syntax.TypedefDecl) (c : Compilation) :
    R c (c.declareTypedef file d) :=
  h.declared (fun t => h.typedef c _ t) _ _

theorem declareDefinition (file : String) (d : Syntax.Definition) :
    EndsAlong R (declareDefinition file d) := by
  cases d with
  | enumeration d => exact endsAlong_polled h.refl h.trans (h.declareEnumeration file d)
  | interface d => exact endsAlong_polled h.refl h.trans (h.declareInterface file d)
  | mixin d => exact endsAlong_polled h.refl h.trans (h.declareMixin file d)
  | dictionary d => exact endsAlong_polled h.refl h.trans (h.declareDictionary file d)
  | includes d => exact .update fun c => h.aside c _
  | callback d => exact endsAlong_polled h.refl h.trans (h.declareCallback file d)
  | typedef d => exact endsAlong_polled h.refl h.trans (h.declareTypedef file d)
  | implementation d =>
      exact .bind h.trans (.update fun c => h.report c _ _) fun _ => .throw h.refl _

theorem declareDocuments (documents : List Syntax.Document) :
    EndsAlong R (documents.forM declareDocument) :=
  .forM h.trans h.refl fun d _ => .forM h.trans h.refl fun definition _ =>
    h.declareDefinition d.name definition

end Declares

end IdlModel
