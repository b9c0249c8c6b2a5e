import IdlModel.Proofs.EntityTypes
import IdlModel.Proofs.Runs

/-!
# Growth

What every run of an action in a state monad leads to.

*Relations.*  An action *leads along* a relation between states if each of its runs
ends in a state that is related to the one it starts in.  If the relation is
reflexive and transitive, an action that is made of such actions is one too.

*Errors.*  An action *grows* if it takes no error back.  If a run of such actions
ends without errors, there are none in any state in it, and every branch that
reports an error is out of the question.
-/

namespace IdlModel

/-! ## Relations -/

/-- Every run of an action leads to a state that is related to its first one. -/
def Leads {σ α : Type} (R : σ → σ → Prop) (action : StateM σ α) : Prop :=
  ∀ s, R s (action.run s).2

namespace Leads

variable {σ α β : Type} {R : σ → σ → Prop}

theorem pure (hrefl : ∀ s, R s s) (a : α) : Leads R (Pure.pure a : StateM σ α) := fun s => hrefl s

theorem update {f : σ → σ} (h : ∀ s, R s (f s)) : Leads R (modify f : StateM σ PUnit) := h

/-- An action that reads the state first. -/
theorem get_bind {f : σ → StateM σ β} (h : ∀ s, R s ((f s).run s).2) : Leads R (get >>= f) := h

variable (htrans : ∀ ⦃s₁ s₂ s₃⦄, R s₁ s₂ → R s₂ s₃ → R s₁ s₃)
include htrans

theorem bind {x : StateM σ α} {f : α → StateM σ β} (hx : Leads R x) (hf : ∀ a, Leads R (f a)) :
    Leads R (x >>= f) :=
  fun s => htrans (hx s) (hf _ _)

variable (hrefl : ∀ s, R s s)
include hrefl

theorem rebuildM {enter : TypeRef → StateM σ Unit} {leave : TypeRef → StateM σ TypeRef}
    (henter : ∀ t, Leads R (enter t)) (hleave : ∀ t, Leads R (leave t)) (t : TypeRef) :
    Leads R (t.rebuildM enter leave) := by
  have rule : TypeRef.RebuildRule enter leave (fun _ => True) R (fun _ => True)
      (fun _ _ => True) (fun _ _ _ => True) :=
    { refl := fun s _ => hrefl s
      trans := fun h h' => htrans h h'
      pre_part := fun _ _ => trivial
      entered_leads := fun _ _ => trivial
      post_leads := fun _ _ => trivial
      enter := fun _ _ => ⟨trivial, henter _ _, trivial⟩
      leave := fun _ _ _ _ => ⟨trivial, hleave _ _, trivial⟩ }
  exact fun s => (rule.run trivial trivial).2.1

theorem mapTypesM {f : Location → TypeRef → StateM σ TypeRef} (hf : ∀ at_ t, Leads R (f at_ t))
    (e : Entity) : Leads R (e.mapTypesM f) := by
  have rule : WalkRule f (fun _ => True) R (fun _ => True) (fun _ _ _ => True) :=
    { refl := fun s _ => hrefl s
      trans := fun h h' => htrans h h'
      post_leads := fun _ _ => trivial
      step := fun at_ t s _ _ => ⟨trivial, hf at_ t s, trivial⟩ }
  exact fun s => (rule.run (fun _ _ => trivial) trivial).2.1

end Leads

/-! ## Errors -/

/-- An action takes no error back. -/
def Grows {σ α : Type} (errors : σ → Nat) (action : StateM σ α) : Prop :=
  ∀ s, errors s ≤ errors (action.run s).2

namespace Grows

variable {σ α β : Type} {errors : σ → Nat}

theorem pure (a : α) : Grows errors (Pure.pure a : StateM σ α) := fun _ => Nat.le_refl _

theorem bind {x : StateM σ α} {f : α → StateM σ β} (hx : Grows errors x)
    (hf : ∀ a, Grows errors (f a)) : Grows errors (x >>= f) :=
  Leads.bind (R := fun s s' => errors s ≤ errors s') (fun _ _ _ => Nat.le_trans) hx hf

theorem get : Grows errors (MonadState.get : StateM σ σ) := fun _ => Nat.le_refl _

theorem update {f : σ → σ} (h : ∀ s, errors s ≤ errors (f s)) :
    Grows errors (modify f : StateM σ PUnit) := h

end Grows

/-! ## Reports -/

namespace Compilation

/-- The number of errors. -/
def errors (c : Compilation) : Nat := c.log.errorCount

/-- No error was reported. -/
def Clean (c : Compilation) : Prop := c.errors = 0

theorem Clean.of_le {c c' : Compilation} (h : c'.Clean) (hle : c.errors ≤ c'.errors) : c.Clean :=
  Nat.le_zero.mp (Nat.le_trans hle (Nat.le_of_eq h))

theorem errors_report (c : Compilation) (issue : Issue) (at_ : Location) :
    (c.report issue at_).errors = c.errors + if issue.severity = .error then 1 else 0 := by
  show (c.log.add _).errorCount = _
  rw [Log.errorCount_add]
  congr 1
  simp [Diagnostic.isError, Diagnostic.severity]

theorem errors_le_report (c : Compilation) (issue : Issue) (at_ : Location) :
    c.errors ≤ (c.report issue at_).errors := by
  rw [errors_report]
  exact Nat.le_add_right _ _

/-- Behind the report of an error no run is clean. -/
theorem not_clean_report {issue : Issue} (hissue : issue.severity = .error) (c : Compilation)
    (at_ : Location) : ¬ (c.report issue at_).Clean := by
  rw [Clean, errors_report, if_pos hissue]
  exact Nat.succ_ne_zero _

theorem isOverLimit_iff {c : Compilation} :
    c.isOverLimit = true ↔ c.settings.errorLimit < c.errors := by
  simp [isOverLimit, errors]

theorem not_isOverLimit_iff {c : Compilation} :
    c.isOverLimit = false ↔ c.errors ≤ c.settings.errorLimit := by
  rw [← Bool.not_eq_true, isOverLimit_iff, Nat.not_lt]

/-- Whether the limit is passed depends on settings and errors. -/
theorem isOverLimit_congr {c c' : Compilation} (herrors : c'.errors = c.errors)
    (hsettings : c'.settings = c.settings) : c'.isOverLimit = c.isOverLimit := by
  unfold errors at herrors
  rw [isOverLimit, isOverLimit, herrors, hsettings]

theorem errors_report_of_error {issue : Issue} (h : issue.severity = .error) (c : Compilation)
    (at_ : Location) : (c.report issue at_).errors = c.errors + 1 := by
  rw [errors_report, if_pos h]

theorem Clean.not_isOverLimit {c : Compilation} (h : c.Clean) : c.isOverLimit = false := by
  simp only [isOverLimit, decide_eq_false_iff_not, Nat.not_lt]
  exact Nat.le_trans (Nat.le_of_eq h) (Nat.zero_le _)

end Compilation

end IdlModel
