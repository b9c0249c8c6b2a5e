import IdlModel.Compile

/-!
# Runs

How to reason about an action that may stop.  A run that *finishes* gives `.ok`
with an answer and a state.  `bind_ok` and its companions take a finished run
apart, and `Keeps` is for properties that every finished run hands on.

`compile_ok` lists what has to happen for a compilation to finish: each stage
finishes and leaves no error behind.
-/

namespace IdlModel

/-! ## Finished runs -/

section Finished

variable {ε σ α β : Type} {s s' : σ} {a : α} {b : β}

theorem bind_ok {x : EStateM ε σ α} {f : α → EStateM ε σ β} :
    (x >>= f) s = .ok b s' ↔ ∃ a s₁, x s = .ok a s₁ ∧ f a s₁ = .ok b s' := by
  show EStateM.bind x f s = .ok b s' ↔ _
  unfold EStateM.bind
  cases h : x s with
  | ok a s₁ =>
      constructor
      · intro hf
        exact ⟨a, s₁, rfl, hf⟩
      · rintro ⟨_, _, heq, hf⟩
        cases heq
        exact hf
  | error e s₁ =>
      constructor
      · intro hf
        cases hf
      · rintro ⟨_, _, heq, _⟩
        cases heq

/-- If the first action finishes, the second one runs behind it. -/
theorem bind_run {x : EStateM ε σ α} {f : α → EStateM ε σ β} (h : x s = .ok a s') :
    (x >>= f) s = f a s' := by
  show EStateM.bind x f s = _
  rw [EStateM.bind, h]

/-- If the first action stops, that is the end of it. -/
theorem bind_error {x : EStateM ε σ α} {f : α → EStateM ε σ β} {e : ε} (h : x s = .error e s') :
    (x >>= f) s = .error e s' := by
  show EStateM.bind x f s = _
  rw [EStateM.bind, h]

theorem pure_ok {a' : α} : (pure a : EStateM ε σ α) s = .ok a' s' ↔ a = a' ∧ s = s' := by
  constructor
  · intro h
    cases h
    exact ⟨rfl, rfl⟩
  · rintro ⟨rfl, rfl⟩
    rfl

theorem get_ok {s₁ : σ} : (get : EStateM ε σ σ) s = .ok s₁ s' ↔ s₁ = s ∧ s' = s := by
  constructor
  · intro h
    cases h
    exact ⟨rfl, rfl⟩
  · rintro ⟨rfl, rfl⟩
    rfl

theorem modify_ok {f : σ → σ} {u : PUnit} :
    (modify f : EStateM ε σ PUnit) s = .ok u s' ↔ s' = f s := by
  constructor
  · intro h
    cases h
    rfl
  · rintro rfl
    rfl

theorem throw_not_ok {e : ε} : ¬ (throw e : EStateM ε σ α) s = .ok a s' := by
  intro h
  cases h

/-- A list of actions finishes if each finishes from the state before it. -/
theorem forM_cons_ok {f : α → EStateM ε σ PUnit} {as : List α} {u : PUnit} :
    ((a :: as).forM f) s = .ok u s' ↔ ∃ s₁, f a s = .ok ⟨⟩ s₁ ∧ as.forM f s₁ = .ok u s' := by
  rw [List.forM_eq_forM, List.forM_cons, bind_ok]
  constructor
  · rintro ⟨_, s₁, h, h'⟩
    exact ⟨s₁, h, h'⟩
  · rintro ⟨s₁, h, h'⟩
    exact ⟨_, s₁, h, h'⟩

theorem forM_cons_run {f : α → EStateM ε σ PUnit} {as : List α} (h : f a s = .ok ⟨⟩ s') :
    (a :: as).forM f s = as.forM f s' := by
  rw [List.forM_eq_forM, List.forM_cons]
  show EStateM.bind _ _ _ = _
  simp only [EStateM.bind, h]

/-- Actions that leave a state alone do so in a list. -/
theorem forM_of_fixed {f : α → EStateM ε σ PUnit} {as : List α}
    (h : ∀ a ∈ as, f a s = .ok ⟨⟩ s) : as.forM f s = .ok ⟨⟩ s := by
  induction as with
  | nil => rfl
  | cons a as ih =>
    obtain ⟨hfirst, hrest⟩ := List.forall_mem_cons.mp h
    rw [forM_cons_run hfirst]
    exact ih hrest

/-- A list of actions stops where the first of them stops. -/
theorem forM_cons_error {f : α → EStateM ε σ PUnit} {as : List α} {e : ε}
    (h : f a s = .error e s') : (a :: as).forM f s = .error e s' := by
  rw [List.forM_eq_forM, List.forM_cons]
  show EStateM.bind _ _ _ = _
  simp only [EStateM.bind, h]

/-- If a list of actions stops, then one of them has, and those before it have finished. -/
theorem forM_error {f : α → EStateM ε σ PUnit} {as : List α} {e : ε}
    (h : as.forM f s = .error e s') :
    ∃ before a after s₁, as = before ++ a :: after ∧ before.forM f s = .ok ⟨⟩ s₁ ∧
      f a s₁ = .error e s' := by
  induction as generalizing s with
  | nil => cases h
  | cons a as ih =>
    cases hfirst : f a s with
    | ok u s₁ =>
        rw [forM_cons_run hfirst] at h
        obtain ⟨before, x, after, s₂, rfl, hbefore, hstop⟩ := ih h
        exact ⟨a :: before, x, after, s₂, rfl, (forM_cons_run hfirst).trans hbefore, hstop⟩
    | error e' s₁ =>
        rw [forM_cons_error hfirst] at h
        cases h
        exact ⟨[], a, as, s, rfl, rfl, hfirst⟩

/-- The state in which a run finishes or stops. -/
def endState : EStateM.Result ε σ α → σ
  | .ok _ s => s
  | .error _ s => s

/-- What a run answers, if it finishes. -/
def answer? : EStateM.Result ε σ α → Option α
  | .ok a _ => some a
  | .error _ _ => none

theorem ok_of_answer? {r : EStateM.Result ε σ α} {f : α → β} (h : (answer? r).map f = some b) :
    ∃ a s, r = .ok a s ∧ f a = b := by
  cases r with
  | ok a s => exact ⟨a, s, rfl, Option.some.inj h⟩
  | error _ _ => cases h

end Finished

/-! ## What finished runs keep -/

/-- Every finished run from a state with a property ends in one. -/
def Keeps {ε σ α : Type} (P : σ → Prop) (action : EStateM ε σ α) : Prop :=
  ∀ s, P s → ∀ a s', action s = .ok a s' → P s'

namespace Keeps

variable {ε σ α β : Type} {P : σ → Prop}

theorem bind {x : EStateM ε σ α} {f : α → EStateM ε σ β} (hx : Keeps P x)
    (hf : ∀ a, Keeps P (f a)) : Keeps P (x >>= f) := by
  intro s hs b s' h
  obtain ⟨a, s₁, hrun, hrest⟩ := bind_ok.mp h
  exact hf a s₁ (hx s hs a s₁ hrun) b s' hrest

theorem pure (a : α) : Keeps P (Pure.pure a : EStateM ε σ α) := by
  intro s hs b s' h
  exact (pure_ok.mp h).2 ▸ hs

theorem throw (e : ε) : Keeps P (MonadExcept.throw e : EStateM ε σ α) :=
  fun _ _ _ _ h => absurd h throw_not_ok

theorem update {f : σ → σ} (h : ∀ s, P s → P (f s)) :
    Keeps P (modify f : EStateM ε σ PUnit) := by
  intro s hs _ s' hrun
  exact modify_ok.mp hrun ▸ h s hs

/-- An action that reads the state first. -/
theorem get_bind {f : σ → EStateM ε σ β}
    (h : ∀ s, P s → ∀ b s', f s s = .ok b s' → P s') : Keeps P (get >>= f) := by
  intro s hs b s' hrun
  obtain ⟨_, _, hget, hrest⟩ := bind_ok.mp hrun
  obtain ⟨rfl, rfl⟩ := get_ok.mp hget
  exact h _ hs b s' hrest

theorem forM {f : α → EStateM ε σ PUnit} {as : List α} (h : ∀ a ∈ as, Keeps P (f a)) :
    Keeps P (as.forM f) := by
  induction as with
  | nil => exact pure _
  | cons a as ih =>
    intro s hs b s' hrun
    obtain ⟨s₁, hfirst, hrest⟩ := forM_cons_ok.mp hrun
    exact ih (fun x hx => h x (List.mem_cons_of_mem a hx)) s₁
      (h a List.mem_cons_self s hs _ s₁ hfirst) b s' hrest

end Keeps

/-! ## Polling -/

theorem checkLimit_run (c : Compilation) :
    checkLimit c = if c.isOverLimit then .error .tooManyErrors c else .ok () c := by
  change (if c.isOverLimit = true then throw Stop.tooManyErrors else pure () : CompileM Unit) c = _
  split <;> rfl

/-- A poll that finishes changes nothing. -/
theorem checkLimit_ok {c c' : Compilation} {u : Unit} (h : checkLimit c = .ok u c') : c' = c := by
  obtain ⟨_, _, hget, hrest⟩ := bind_ok.mp h
  obtain ⟨rfl, rfl⟩ := get_ok.mp hget
  split at hrest
  · exact absurd hrest throw_not_ok
  · exact (pure_ok.mp hrest).2.symm

/-- A change with a poll behind it, if that finishes. -/
theorem update_ok {f : Compilation → Compilation} {c c' : Compilation} {u : Unit}
    (h : (do modify f; checkLimit : CompileM Unit) c = .ok u c') : c' = f c := by
  obtain ⟨_, _, hmodify, hcheck⟩ := bind_ok.mp h
  rw [checkLimit_ok hcheck]
  exact modify_ok.mp hmodify

theorem keeps_checkLimit {P : Compilation → Prop} : Keeps P checkLimit :=
  fun _ hs _ _ h => checkLimit_ok h ▸ hs

/-! ## Stages -/

/-- A stage finishes if its action does and there are no errors then. -/
theorem runStage_ok {action : CompileM Unit} {stage : Stage} {c c' : Compilation} {u : Unit} :
    runStage action stage c = .ok u c' ↔ action c = .ok u c' ∧ c'.log.errorCount = 0 := by
  constructor
  · intro h
    obtain ⟨_, c₁, hrun, hrest⟩ := bind_ok.mp h
    obtain ⟨_, c₂, hget, herrors⟩ := bind_ok.mp hrest
    obtain ⟨rfl, rfl⟩ := get_ok.mp hget
    by_cases hzero : c₂.log.errorCount = 0
    · rw [if_neg (Classical.not_not.mpr hzero)] at herrors
      obtain ⟨_, rfl⟩ := pure_ok.mp herrors
      exact ⟨hrun, hzero⟩
    · rw [if_pos hzero] at herrors
      exact absurd herrors throw_not_ok
  · rintro ⟨hrun, hzero⟩
    refine bind_ok.mpr ⟨u, c', hrun, bind_ok.mpr ⟨c', c', rfl, ?_⟩⟩
    rw [if_neg (Classical.not_not.mpr hzero)]
    rfl

/-- The runs of the stages of a compilation that finishes. -/
structure CompileRun (documents : List Syntax.Document) (scripts : List Script.Source)
    (start extracted merged linked settled named finished : Compilation) : Prop where
  extract : runStage (Stage.extract.action documents scripts) .extract start = .ok () extracted
  merge : runStage (Stage.merge.action documents scripts) .merge extracted = .ok () merged
  link : runStage (Stage.link.action documents scripts) .link merged = .ok () linked
  promise : runStage (Stage.promise.action documents scripts) .promise linked = .ok () settled
  overrides : runStage (Stage.overrides.action documents scripts) .overrides settled = .ok () named
  transform :
    runStage (Stage.transform.action documents scripts) .transform named = .ok () finished

/-- A compilation that finishes has run all its stages, and its model is that of
the last table. -/
theorem compile_ok {documents : List Syntax.Document} {scripts : List Script.Source}
    {start final : Compilation} {model : CompiledModel}
    (h : compile documents scripts start = .ok model final) :
    ∃ extracted merged linked settled named finished,
      CompileRun documents scripts start extracted merged linked settled named finished ∧
        model = .ofTable finished.table := by
  obtain ⟨_, finished, hstages, hrest⟩ := bind_ok.mp h
  obtain ⟨extracted, h₁, hstages⟩ := forM_cons_ok.mp hstages
  obtain ⟨merged, h₂, hstages⟩ := forM_cons_ok.mp hstages
  obtain ⟨linked, h₃, hstages⟩ := forM_cons_ok.mp hstages
  obtain ⟨settled, h₄, hstages⟩ := forM_cons_ok.mp hstages
  obtain ⟨named, h₅, hstages⟩ := forM_cons_ok.mp hstages
  obtain ⟨last, h₆, hstages⟩ := forM_cons_ok.mp hstages
  obtain ⟨_, rfl⟩ := pure_ok.mp hstages
  obtain ⟨table, _, htake, hmodel⟩ := bind_ok.mp hrest
  refine ⟨extracted, merged, linked, settled, named, last, ⟨h₁, h₂, h₃, h₄, h₅, h₆⟩, ?_⟩
  obtain ⟨rfl, _⟩ := pure_ok.mp hmodel
  cases htake
  rfl

end IdlModel
