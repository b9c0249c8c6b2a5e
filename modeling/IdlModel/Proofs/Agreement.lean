import IdlModel.Proofs.Growth

/-!
# Agreement of runs

Two runs of one action from related states.

*Agreement.*  An action *agrees* on a relation between states if it gives the same answer on
related states, or stops for the same reason, and the states behind it are related again.

*Rules.*  To give an answer agrees, and so does one such action after another.  A class of
actions that is closed in this sense has the walks over types whose steps it has:
`Closed.rebuildM` and `Closed.mapTypesM`.

*Logs.*  Compilations are *alike* if they are the same but for their logs.  A relation between
logs is *unseen* if reports keep it and it leaves the number of errors as it is, for that is all
that polls read.
-/

namespace IdlModel

/-! ## Closed classes of actions -/

/-- A class of actions that has the answers, and one action of it after another. -/
structure Closed {m : Type → Type} [Monad m] (P : ∀ {α : Type}, m α → Prop) : Prop where
  pure : ∀ {α : Type} (a : α), P (Pure.pure a : m α)
  bind : ∀ {α β : Type} {x : m α} {f : α → m β}, P x → (∀ a, P (f a)) → P (x >>= f)

namespace Closed

variable {m : Type → Type} [Monad m] {P : ∀ {α : Type}, m α → Prop} (h : Closed @P)
include h

mutual

theorem rebuildM {enter : TypeRef → m Unit} {leave : TypeRef → m TypeRef}
    (henter : ∀ t, P (enter t)) (hleave : ∀ t, P (leave t)) (t : TypeRef) :
    P (t.rebuildM enter leave) :=
  match t with
  | .sequence element =>
      h.bind (henter _) fun _ => h.bind (rebuildM henter hleave element) fun _ => hleave _
  | .record key value =>
      h.bind (henter _) fun _ => h.bind (rebuildM henter hleave key) fun _ =>
        h.bind (rebuildM henter hleave value) fun _ => hleave _
  | .parametrized _ args =>
      h.bind (henter _) fun _ => h.bind (rebuildListM henter hleave args) fun _ => hleave _
  | .union members =>
      h.bind (henter _) fun _ => h.bind (rebuildListM henter hleave members) fun _ => hleave _
  | .nullable inner =>
      h.bind (henter _) fun _ => h.bind (rebuildM henter hleave inner) fun _ => hleave _
  | .primitive _ | .void | .any | .entity .. | .unlinked _ | .placeholder _ =>
      h.bind (henter _) fun _ => hleave _

theorem rebuildListM {enter : TypeRef → m Unit} {leave : TypeRef → m TypeRef}
    (henter : ∀ t, P (enter t)) (hleave : ∀ t, P (leave t)) (ts : List TypeRef) :
    P (TypeRef.rebuildListM enter leave ts) :=
  match ts with
  | [] => h.pure _
  | t :: ts =>
      h.bind (rebuildM henter hleave t) fun _ =>
        h.bind (rebuildListM henter hleave ts) fun _ => h.pure _

end

variable [LawfulMonad m] {α β : Type}

theorem map {x : m α} (hx : P x) (f : α → β) : P (f <$> x) := by
  rw [map_eq_pure_bind]
  exact h.bind hx fun _ => h.pure _

theorem mapM {g : α → m β} (hg : ∀ a, P (g a)) (as : List α) : P (as.mapM g) := by
  induction as with
  | nil => exact h.pure _
  | cons a as ih =>
    rw [List.mapM_cons]
    exact h.bind (hg a) fun _ => h.bind ih fun _ => h.pure _

variable {f : Location → TypeRef → m TypeRef} (hf : ∀ at_ t, P (f at_ t))
include hf

theorem mapTypesM_parameters (source : Location) (ds : List Parameter) :
    P (Parameter.mapTypesM f source ds) := by
  refine h.mapM (fun d => ?_) ds
  exact h.bind (hf _ d.type) fun _ => h.pure _

theorem mapTypesM_method (d : Method) : P (Method.mapTypesM f d) :=
  h.bind (hf _ d.result) fun _ =>
    h.bind (h.mapTypesM_parameters hf d.source d.params) fun _ => h.pure _

theorem mapTypesM_constants (ds : List Constant) : P (Constant.mapTypesM f ds) := by
  refine h.mapM (fun d => ?_) ds
  exact h.bind (hf _ d.type) fun _ => h.pure _

theorem mapTypesM_attributes (ds : List Attribute) : P (Attribute.mapTypesM f ds) := by
  refine h.mapM (fun d => ?_) ds
  exact h.bind (hf _ d.type) fun _ => h.pure _

theorem mapTypesM_fields (ds : List Field) : P (Field.mapTypesM f ds) := by
  refine h.mapM (fun d => ?_) ds
  exact h.bind (hf _ d.type) fun _ => h.pure _

theorem mapTypesM_members (d : Members) : P (Members.mapTypesM f d) :=
  h.bind (h.mapTypesM_constants hf d.constants) fun _ =>
    h.bind (h.mapTypesM_attributes hf d.attributes) fun _ =>
      h.bind (h.mapTypesM_attributes hf d.staticAttributes) fun _ =>
        h.bind (h.mapM (h.mapTypesM_method hf) d.methods) fun _ =>
          h.bind (h.mapM (h.mapTypesM_method hf) d.staticMethods) fun _ => h.pure _

/-- A walk over the types of an entity. -/
theorem mapTypesM (e : Entity) : P (e.mapTypesM f) := by
  cases e with
  | interface d =>
      refine h.map (h.bind (h.mapTypesM_members hf d.members) fun _ => ?_) _
      dsimp only
      split
      next method _ =>
        exact h.bind (h.map (h.mapTypesM_method hf method) some) fun _ => h.pure _
      next => exact h.bind (h.pure none) fun _ => h.pure _
  | dictionary d =>
      refine h.map (h.bind (h.mapTypesM_fields hf d.members) fun _ => ?_) _
      exact h.bind (h.mapTypesM_fields hf d.inherited) fun _ => h.pure _
  | enumeration d => exact h.pure _
  | callback d =>
      refine h.map (h.bind (hf _ d.result) fun _ => ?_) _
      exact h.bind (h.mapTypesM_parameters hf _ d.params) fun _ => h.pure _

end Closed

/-! ## Agreement -/

section Agreement

variable {ε σ α β : Type} {S : σ → σ → Prop}

/-- An action gives the same answers on related states, and leaves them related. -/
def Agrees (S : σ → σ → Prop) (x : StateM σ α) : Prop :=
  ∀ ⦃s s'⦄, S s s' → (x.run s').1 = (x.run s).1 ∧ S (x.run s).2 (x.run s').2

/-- Two runs end with the same answer, or stop for the same reason, in related states. -/
inductive SameEnd (S : σ → σ → Prop) : EStateM.Result ε σ α → EStateM.Result ε σ α → Prop
  | ok (a : α) {s s' : σ} (h : S s s') : SameEnd S (.ok a s) (.ok a s')
  | error (e : ε) {s s' : σ} (h : S s s') : SameEnd S (.error e s) (.error e s')

/-- An action that may stop ends in the same way on related states. -/
def AgreesRun (S : σ → σ → Prop) (x : EStateM ε σ α) : Prop :=
  ∀ ⦃s s'⦄, S s s' → SameEnd S (x s) (x s')

namespace Agrees

theorem closed (S : σ → σ → Prop) : Closed (m := StateM σ) (Agrees S) where
  pure _ _ _ h := ⟨rfl, h⟩
  bind {_ _ x f} hx hf s s' h := by
    obtain ⟨hanswer, hstates⟩ := hx h
    show ((f (x.run s').1).run (x.run s').2).1 = ((f (x.run s).1).run (x.run s).2).1 ∧
      S ((f (x.run s).1).run (x.run s).2).2 ((f (x.run s').1).run (x.run s').2).2
    rw [hanswer]
    exact hf _ hstates

theorem pure (a : α) : Agrees S (Pure.pure a : StateM σ α) := (closed S).pure a

theorem bind {x : StateM σ α} {f : α → StateM σ β} (hx : Agrees S x) (hf : ∀ a, Agrees S (f a)) :
    Agrees S (x >>= f) :=
  (closed S).bind hx hf

theorem update {f : σ → σ} (h : ∀ ⦃s s'⦄, S s s' → S (f s) (f s')) :
    Agrees S (modify f : StateM σ PUnit) := fun _ _ hs => ⟨rfl, h hs⟩

/-- An action that reads something of the state first that is the same in related states. -/
theorem get_bind {f : σ → StateM σ β} (hread : ∀ ⦃s s'⦄, S s s' → f s' = f s)
    (hf : ∀ s, Agrees S (f s)) : Agrees S (get >>= f) := by
  intro s s' h
  show ((f s').run s').1 = ((f s).run s).1 ∧ S ((f s).run s).2 ((f s').run s').2
  rw [hread h]
  exact hf s h

end Agrees

namespace AgreesRun

theorem pure (a : α) : AgreesRun S (Pure.pure a : EStateM ε σ α) := fun _ _ h => .ok a h

theorem throw (e : ε) : AgreesRun S (MonadExcept.throw e : EStateM ε σ α) :=
  fun _ _ h => .error e h

theorem update {f : σ → σ} (h : ∀ ⦃s s'⦄, S s s' → S (f s) (f s')) :
    AgreesRun S (modify f : EStateM ε σ PUnit) := fun _ _ hs => .ok _ (h hs)

theorem bind {x : EStateM ε σ α} {f : α → EStateM ε σ β} (hx : AgreesRun S x)
    (hf : ∀ a, AgreesRun S (f a)) : AgreesRun S (x >>= f) := by
  intro s s' h
  have hfirst := hx h
  generalize hrun : x s = r, hrun' : x s' = r' at hfirst
  cases hfirst with
  | ok a h₁ =>
      rw [bind_run hrun, bind_run hrun']
      exact hf a h₁
  | error e h₁ =>
      rw [bind_error hrun, bind_error hrun']
      exact .error e h₁

/-- An action that reads something of the state first that is the same in related states. -/
theorem get_bind {f : σ → EStateM ε σ β} (hread : ∀ ⦃s s'⦄, S s s' → f s' = f s)
    (hf : ∀ s, AgreesRun S (f s)) : AgreesRun S (get >>= f) := by
  intro s s' h
  show SameEnd S (f s s) (f s' s')
  rw [hread h]
  exact hf s h

theorem forM {f : α → EStateM ε σ PUnit} {as : List α} (h : ∀ a ∈ as, AgreesRun S (f a)) :
    AgreesRun S (as.forM f) := by
  induction as with
  | nil => exact pure _
  | cons a as ih =>
    obtain ⟨hfirst, hrest⟩ := List.forall_mem_cons.mp h
    rw [List.forM_eq_forM, List.forM_cons, ← List.forM_eq_forM]
    exact hfirst.bind fun _ => ih hrest

end AgreesRun

end Agreement

/-! ## Compilations that are alike -/

/-- A relation between logs that reports keep and that no number of errors shows. -/
structure Log.Unseen (R : Log → Log → Prop) : Prop where
  errorCount_eq : ∀ ⦃l l'⦄, R l l' → l'.errorCount = l.errorCount
  add : ∀ ⦃l l'⦄, R l l' → ∀ d, R (l.add d) (l'.add d)

namespace Compilation

variable {R : Log → Log → Prop} {c c' : Compilation}

/-- Compilations that are the same but for their logs, which are related. -/
inductive Alike (R : Log → Log → Prop) (c : Compilation) : Compilation → Prop
  | mk {log : Log} (h : R c.log log) : Alike R c { c with log }

theorem Alike.table_eq (h : Alike R c c') : c'.table = c.table := by
  cases h
  rfl

theorem Alike.packageOf_eq (h : Alike R c c') (file : String) :
    c'.packageOf file = c.packageOf file := by
  cases h
  rfl

theorem Alike.withTable (h : Alike R c c') (table : SymbolTable) :
    Alike R { c with table } { c' with table } := by
  cases h with
  | mk h => exact .mk h

theorem Alike.withFragments (h : Alike R c c') (f : Fragments → Fragments) :
    Alike R { c with fragments := f c.fragments } { c' with fragments := f c'.fragments } := by
  cases h with
  | mk h => exact .mk h

section Unseen

variable (hR : Log.Unseen R)
include hR

theorem Alike.errors_eq (h : Alike R c c') : c'.errors = c.errors := by
  cases h with
  | mk h => exact hR.errorCount_eq h

theorem Alike.isOverLimit_eq (h : Alike R c c') : c'.isOverLimit = c.isOverLimit := by
  cases h with
  | mk h => exact isOverLimit_congr (hR.errorCount_eq h) rfl

theorem Alike.add (h : Alike R c c') (d : Diagnostic) : Alike R (c.add d) (c'.add d) := by
  cases h with
  | mk h => exact .mk (hR.add h d)

theorem Alike.report (h : Alike R c c') (issue : Issue) (at_ : Location) :
    Alike R (c.report issue at_) (c'.report issue at_) :=
  h.add hR _

end Unseen

/-- A change keeps compilations alike. -/
def KeepsAlike (R : Log → Log → Prop) (f : Compilation → Compilation) : Prop :=
  ∀ ⦃c c'⦄, Alike R c c' → Alike R (f c) (f c')

theorem KeepsAlike.comp {f g : Compilation → Compilation} (hg : KeepsAlike R g)
    (hf : KeepsAlike R f) : KeepsAlike R fun c => g (f c) := fun _ _ h => hg (hf h)

theorem KeepsAlike.foldl {α : Type} {f : Compilation → α → Compilation}
    (hf : ∀ a, KeepsAlike R (f · a)) (as : List α) : KeepsAlike R fun c => as.foldl f c := by
  induction as with
  | nil => exact fun _ _ h => h
  | cons a as ih => exact ih.comp (hf a)

end Compilation

/-- Polls see the number of errors only. -/
theorem agreesRun_checkLimit {R : Log → Log → Prop} (hR : Log.Unseen R) :
    AgreesRun (Compilation.Alike R) checkLimit := by
  refine .get_bind (fun _ _ h => by rw [h.isOverLimit_eq hR]) fun c => ?_
  split
  · exact .throw _
  · exact .pure _

end IdlModel
