import Mathlib.Data.List.Perm.Subperm
import Mathlib.Logic.Relation
import IdlModel.Linking
import IdlModel.Proofs.TableLaws

/-!
# Ancestors

What the search for ancestors finds.

*Closure.*  `SymbolTable.ancestors` lists exactly the entities that are reached
by going from parent to parent, also on a cycle.  The search stops at the first
entity it met before, and its fuel suffices because all entities it passes are
different and have a place in the table.

*Cycles.*  An entity has one parent at most, so what is reached from a cycle is on it.

*Lineages.*  If no cycle is met, the ancestors are a *lineage*: the parent, the
parent of the parent and so on, until there is none.  A lineage has no entity
twice.
-/

namespace IdlModel

open Relation (ReflTransGen TransGen)

namespace SymbolTable

variable {t : SymbolTable} {x y z : EntityId}

/-- An entity and its parent. -/
def HasParent (t : SymbolTable) (x y : EntityId) : Prop := t.parentOf? x = some y

/-- Going from parent to parent leads back to the entity. -/
def OnCycle (t : SymbolTable) (x : EntityId) : Prop := TransGen t.HasParent x x

theorem HasParent.lt (h : t.HasParent x y) : x.index < t.size := by
  unfold HasParent parentOf? at h
  obtain ⟨e, he, _⟩ := Option.bind_eq_some_iff.mp h
  exact lt_of_entity? he

theorem HasParent.unique (h : t.HasParent x y) (h' : t.HasParent x z) : y = z :=
  Option.some.inj (h.symm.trans h')

/-- Different entities with a place are not more than there are entities. -/
theorem length_le_size {l : List EntityId} (hl : l.Nodup) (hlt : ∀ x ∈ l, x.index < t.size) :
    l.length ≤ t.size := by
  have hsubset : l ⊆ t.ids := fun x hx => (t.mem_ids x).mpr (hlt x hx)
  calc l.length ≤ t.ids.length := (List.subperm_of_subset hl hsubset).length_le
    _ = t.size := by simp [ids]

/-! ## Closure -/

/-- Only what is reached is found. -/
theorem transGen_of_mem_chainFrom {start : EntityId} {fuel : Nat} {before : List EntityId}
    (h : y ∈ t.chainFrom start fuel before x) : TransGen t.HasParent x y := by
  induction fuel generalizing before x with
  | zero => cases h
  | succ fuel ih =>
    unfold chainFrom at h
    split at h
    next => cases h
    next parent hparent =>
      split at h
      · rw [List.mem_singleton] at h
        exact .single (h ▸ hparent)
      · rcases List.mem_cons.mp h with rfl | h
        · exact .single hparent
        · exact .head hparent (ih h)

/-- The entities that a search has passed: they are different, and each but the
current one has a place and its parent among them. -/
structure Passed (t : SymbolTable) (start : EntityId) (before : List EntityId)
    (current : EntityId) : Prop where
  nodup : before.Nodup
  lt : ∀ z ∈ before, z ≠ current → z.index < t.size
  closed : ∀ z ∈ start :: before, z ≠ current → ∀ p, t.HasParent z p → p ∈ before

/-- What was passed and what is found behind it are closed under parents. -/
theorem Passed.chainFrom {start current : EntityId} {fuel : Nat} {before : List EntityId}
    (h : t.Passed start before current) (hcurrent : current ∈ start :: before)
    (hfuel : t.size + 1 ≤ fuel + before.length) :
    ∀ z ∈ start :: (before ++ t.chainFrom start fuel before current), ∀ p, t.HasParent z p →
      p ∈ before ++ t.chainFrom start fuel before current := by
  induction fuel generalizing before current with
  | zero =>
    -- All that was passed would have a place, and there are too few places.
    intro z hz p hp
    rw [SymbolTable.chainFrom, List.append_nil] at hz ⊢
    by_cases hzc : z = current
    · exfalso
      have hlt : ∀ w ∈ before, w.index < t.size := by
        intro w hw
        by_cases hwc : w = current
        · rw [hwc, ← hzc]
          exact hp.lt
        · exact h.lt w hw hwc
      have := length_le_size h.nodup hlt
      omega
    · exact h.closed z hz hzc p hp
  | succ fuel ih =>
    cases hparent : t.parentOf? current with
    | none =>
        intro z hz p hp
        simp only [SymbolTable.chainFrom, hparent, List.append_nil] at hz ⊢
        by_cases hzc : z = current
        · rw [hzc, HasParent, hparent] at hp
          cases hp
        · exact h.closed z hz hzc p hp
    | some parent =>
        by_cases hmet : parent = start ∨ parent ∈ before
        · intro z hz p hp
          have hchain : t.chainFrom start (fuel + 1) before current = [parent] := by
            simp [SymbolTable.chainFrom, hparent, hmet]
          rw [hchain] at hz ⊢
          have hz' : z ∈ start :: before := by
            rcases List.mem_cons.mp hz with rfl | hz
            · exact List.mem_cons_self
            · rcases List.mem_append.mp hz with hz | hz
              · exact List.mem_cons_of_mem _ hz
              · rw [List.mem_singleton.mp hz]
                exact List.mem_cons.mpr hmet
          by_cases hzc : z = current
          · obtain rfl : parent = p := HasParent.unique hparent (hzc ▸ hp)
            exact List.mem_append_right _ List.mem_cons_self
          · exact List.mem_append_left _ (h.closed z hz' hzc p hp)
        · have hchain : t.chainFrom start (fuel + 1) before current =
              parent :: t.chainFrom start fuel (parent :: before) parent := by
            simp only [SymbolTable.chainFrom, hparent, Bool.or_eq_true, decide_eq_true_eq,
              List.contains_iff_mem, if_neg hmet]
          have hnext : t.Passed start (parent :: before) parent := by
            refine ⟨List.nodup_cons.mpr ⟨fun hin => hmet (.inr hin), h.nodup⟩, ?_, ?_⟩
            · intro z hz hzp
              have hz := (List.mem_cons.mp hz).resolve_left hzp
              by_cases hzc : z = current
              · rw [hzc]
                exact HasParent.lt hparent
              · exact h.lt z hz hzc
            · intro z hz hzp p hp
              by_cases hzc : z = current
              · obtain rfl : parent = p := HasParent.unique hparent (hzc ▸ hp)
                exact List.mem_cons_self
              · refine List.mem_cons_of_mem _ (h.closed z ?_ hzc p hp)
                rcases List.mem_cons.mp hz with rfl | hz
                · exact List.mem_cons_self
                · exact List.mem_cons_of_mem _ ((List.mem_cons.mp hz).resolve_left hzp)
          have hclosed := ih hnext (List.mem_cons_of_mem _ List.mem_cons_self)
            (by rw [List.length_cons]; omega)
          intro z hz p hp
          rw [hchain] at hz ⊢
          have hperm : ∀ w, w ∈ before ++ parent :: t.chainFrom start fuel (parent :: before) parent ↔
              w ∈ parent :: before ++ t.chainFrom start fuel (parent :: before) parent := by
            intro w
            simp only [List.mem_append, List.mem_cons]
            tauto
          refine (hperm p).mpr (hclosed z ?_ p hp)
          rcases List.mem_cons.mp hz with rfl | hz
          · exact List.mem_cons_self
          · exact List.mem_cons_of_mem _ ((hperm z).mp hz)

/-- The ancestors of an entity are what is reached from parent to parent. -/
theorem mem_ancestors_iff : y ∈ t.ancestors x ↔ TransGen t.HasParent x y := by
  constructor
  · exact transGen_of_mem_chainFrom
  · intro h
    have hstart : t.Passed x [] x := by
      constructor
      · exact List.nodup_nil
      · intro z hz
        cases hz
      · intro z hz hzx
        exact absurd (List.mem_singleton.mp hz) hzx
    have hclosed := hstart.chainFrom List.mem_cons_self (Nat.le_add_right (t.size + 1) 0)
    rw [List.nil_append] at hclosed
    induction h with
    | single hparent => exact hclosed x List.mem_cons_self _ hparent
    | tail _ hparent ih => exact hclosed _ (List.mem_cons_of_mem x ih) _ hparent

/-! ## Cycles -/

/-- What is reached from a cycle leads back to where it was reached from. -/
theorem OnCycle.leads_back (h : t.OnCycle x) (hy : ReflTransGen t.HasParent x y) :
    TransGen t.HasParent y x := by
  induction hy with
  | refl => exact h
  | tail _ hparent ih =>
      obtain ⟨_, hparent', hback⟩ := TransGen.head'_iff.mp ih
      obtain rfl := HasParent.unique hparent hparent'
      exact .trans_right hback h

/-- What is reached from a cycle is on a cycle. -/
theorem OnCycle.of_reached (h : t.OnCycle x) (hy : ReflTransGen t.HasParent x y) : t.OnCycle y :=
  (h.leads_back hy).trans_left hy

/-- An entity on a cycle has a parent. -/
theorem OnCycle.exists_hasParent (h : t.OnCycle x) : ∃ y, t.HasParent x y := by
  obtain ⟨y, hparent, _⟩ := TransGen.head'_iff.mp h
  exact ⟨y, hparent⟩

/-- An entity is on a cycle if and only if it is its parent or an ancestor of it. -/
theorem HasParent.onCycle_iff (h : t.HasParent x y) : t.OnCycle x ↔ y = x ∨ x ∈ t.ancestors y := by
  rw [OnCycle, TransGen.head'_iff, mem_ancestors_iff]
  constructor
  · rintro ⟨_, hparent, hback⟩
    obtain rfl := h.unique hparent
    exact (Relation.reflTransGen_iff_eq_or_transGen.mp hback).imp_left Eq.symm
  · rintro (rfl | hback)
    · exact ⟨_, h, .refl⟩
    · exact ⟨_, h, hback.to_reflTransGen⟩

/-! ## Lineages -/

/-- The ancestors of an entity, up to one that has no parent. -/
inductive Lineage (t : SymbolTable) : EntityId → List EntityId → Prop
  | root {x : EntityId} (parent : t.parentOf? x = none) : Lineage t x []
  | step {x p : EntityId} {l : List EntityId} (parent : t.HasParent x p) (rest : Lineage t p l) :
      Lineage t x (p :: l)

namespace Lineage

variable {l l' : List EntityId}

theorem unique (h : t.Lineage x l) (h' : t.Lineage x l') : l = l' := by
  induction h generalizing l' with
  | root parent =>
      cases h' with
      | root _ => rfl
      | step parent' _ => cases parent.symm.trans parent'
  | step parent _ ih =>
      cases h' with
      | root parent' => cases parent'.symm.trans parent
      | step parent' rest' =>
          obtain rfl := HasParent.unique parent parent'
          rw [ih rest']

/-- A member of a lineage has the rest of it as its own. -/
theorem of_mem (h : t.Lineage x l) (hy : y ∈ l) : ∃ l', t.Lineage y l' ∧ l'.length < l.length := by
  induction h with
  | root _ => cases hy
  | @step x p l _ rest ih =>
      rcases List.mem_cons.mp hy with rfl | hy
      · exact ⟨l, rest, Nat.lt_succ_self _⟩
      · obtain ⟨l', hl', hlt⟩ := ih hy
        exact ⟨l', hl', Nat.lt_succ_of_lt hlt⟩

theorem not_mem (h : t.Lineage x l) : x ∉ l := by
  intro hx
  obtain ⟨l', hl', hlt⟩ := h.of_mem hx
  rw [h.unique hl'] at hlt
  exact Nat.lt_irrefl _ hlt

theorem nodup (h : t.Lineage x l) : (x :: l).Nodup := by
  induction h with
  | root _ => exact List.nodup_singleton _
  | step parent rest ih => exact List.nodup_cons.mpr ⟨(Lineage.step parent rest).not_mem, ih⟩

/-- All of a lineage but its last entity have a place. -/
theorem length_le (h : t.Lineage x l) : l.length ≤ t.size := by
  have hlt : ∀ y ∈ (x :: l).dropLast, y.index < t.size := by
    induction h with
    | root _ =>
        intro y hy
        cases hy
    | step parent rest ih =>
        intro y hy
        rw [List.dropLast_cons_cons] at hy
        rcases List.mem_cons.mp hy with rfl | hy
        · exact parent.lt
        · exact ih y hy
  have hlength := length_le_size (h.nodup.sublist (List.dropLast_sublist _)) hlt
  simpa using hlength

/-- A search without repetition finds the lineage. -/
theorem chainFrom_eq (h : t.Lineage x l) {start : EntityId} {fuel : Nat} {before : List EntityId}
    (hfuel : l.length ≤ fuel) (hfresh : ∀ y ∈ l, y ∉ start :: before) :
    t.chainFrom start fuel before x = l := by
  induction h generalizing fuel before with
  | root parent =>
      cases fuel with
      | zero => rfl
      | succ fuel => simp only [chainFrom, parent]
  | @step x p l parent rest ih =>
      cases fuel with
      | zero => exact absurd hfuel (Nat.not_succ_le_zero _)
      | succ fuel =>
          have hp := hfresh p List.mem_cons_self
          simp only [List.mem_cons, not_or] at hp
          have hfresh' : ∀ y ∈ l, y ∉ start :: p :: before := by
            intro y hy hmem
            have hne := hfresh y (List.mem_cons_of_mem _ hy)
            simp only [List.mem_cons, not_or] at hne hmem
            rcases hmem with heq | rfl | hmem
            · exact hne.1 heq
            · exact rest.not_mem hy
            · exact hne.2 hmem
          have hrest := ih (Nat.le_of_succ_le_succ hfuel) hfresh'
          unfold HasParent at parent
          simp only [chainFrom, parent]
          rw [if_neg (by simp [hp.1, hp.2]), hrest]

theorem ancestors_eq (h : t.Lineage x l) : t.ancestors x = l := by
  refine h.chainFrom_eq (Nat.le_succ_of_le h.length_le) fun y hy hmem => ?_
  rw [List.mem_singleton] at hmem
  exact h.not_mem (hmem ▸ hy)

end Lineage

/-- An entity that leads to no cycle has a lineage. -/
theorem exists_lineage (h : ∀ y, ReflTransGen t.HasParent x y → ¬ t.OnCycle y) :
    ∃ l, t.Lineage x l := by
  -- The entities that lead here are different and have a place, so this ends.
  suffices hsearch : ∀ n, ∀ (visited : List EntityId) (x : EntityId), visited.Nodup →
      (∀ z ∈ visited, z.index < t.size ∧ TransGen t.HasParent z x) →
      t.size ≤ n + visited.length →
      (∀ y, ReflTransGen t.HasParent x y → ¬ t.OnCycle y) → ∃ l, t.Lineage x l from
    hsearch t.size [] x List.nodup_nil (fun _ hz => by cases hz) (Nat.le_add_right _ _) h
  intro n
  induction n with
  | zero =>
    intro visited x hnodup hvisited hn hacyclic
    cases hparent : t.parentOf? x with
    | none => exact ⟨[], .root hparent⟩
    | some p =>
        exfalso
        have hx : x ∉ visited := fun hx => hacyclic x .refl (hvisited x hx).2
        have := length_le_size (List.nodup_cons.mpr ⟨hx, hnodup⟩) (by
          intro z hz
          rcases List.mem_cons.mp hz with rfl | hz
          · exact HasParent.lt hparent
          · exact (hvisited z hz).1)
        rw [List.length_cons] at this
        omega
  | succ n ih =>
    intro visited x hnodup hvisited hn hacyclic
    cases hparent : t.parentOf? x with
    | none => exact ⟨[], .root hparent⟩
    | some p =>
        have hx : x ∉ visited := fun hx => hacyclic x .refl (hvisited x hx).2
        obtain ⟨l, hl⟩ := ih (x :: visited) p (List.nodup_cons.mpr ⟨hx, hnodup⟩) (by
            intro z hz
            rcases List.mem_cons.mp hz with rfl | hz
            · exact ⟨HasParent.lt hparent, .single hparent⟩
            · exact ⟨(hvisited z hz).1, (hvisited z hz).2.tail hparent⟩)
          (by rw [List.length_cons]; omega)
          fun y hy => hacyclic y (.head hparent hy)
        exact ⟨p :: l, .step hparent hl⟩

end SymbolTable

end IdlModel
