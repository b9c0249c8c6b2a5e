import IdlModel.Proofs.CutParents
import IdlModel.Proofs.Endings

/-!
# Linking again

What calls of the linker do one after the other, in any state and with any errors.

*Counts.*  A later state of the linker has names and kinds of the same shape, and nothing goes
out of use.  The visits made and the entities out of use are the same number together, so the
visits count the entities that have come into use.

*Repeats.*  Behind a call nothing that it asked for is *due*: the limit is passed or the entity
is in use.  What is not due stays so.  So the same call once more finds nothing to do and ends
in the same way.
-/

namespace IdlModel

/-- The entities that are not in use in a table but in a later one. -/
def SymbolTable.cameIntoUse (t t' : SymbolTable) : List EntityId :=
  t.ids.filter fun x => !t.isInUse x && t'.isInUse x

/-- The entities that have come into use are those that are no longer unused. -/
theorem SymbolTable.length_cameIntoUse {t t' : SymbolTable} (hsize : t'.size = t.size)
    (hused : ∀ x, t.isInUse x = true → t'.isInUse x = true) :
    (t.cameIntoUse t').length + t'.unused = t.unused := by
  let free := t.ids.filter fun x => !t.isInUse x
  have hids : t'.ids = t.ids := by rw [ids, ids, hsize]
  have hcame : (t.cameIntoUse t').length = free.countP t'.isInUse := by
    rw [cameIntoUse, ← List.countP_eq_length_filter, List.countP_filter]
    exact List.countP_congr fun x _ => by rw [Bool.and_comm]
  have hleft : t'.unused = free.countP fun x => ¬t'.isInUse x := by
    rw [unused, hids, List.countP_filter]
    refine List.countP_congr fun x _ => ?_
    cases h : t.isInUse x with
    | false => simp
    | true => simp [hused x h]
  calc (t.cameIntoUse t').length + t'.unused
      = free.countP t'.isInUse + free.countP fun x => ¬t'.isInUse x := by rw [hcame, hleft]
    _ = free.length := (List.length_eq_countP_add_countP t'.isInUse).symm
    _ = t.unused := (List.countP_eq_length_filter ..).symm

namespace Linker

/-! ## Later states -/

/-- A state and one that later visits lead to. -/
structure Advances (l l' : Linker) : Prop where
  shape : l.table.SameShape l'.table
  used : ∀ x, l.table.isInUse x = true → l'.table.isInUse x = true
  limit : l'.compilation.isOverLimit = false → l.compilation.isOverLimit = false
  counted : l'.visits + l'.table.unused = l.visits + l.table.unused

variable {l l' l'' : Linker} {id : EntityId}

theorem Advances.refl (l : Linker) : Advances l l := ⟨.refl _, fun _ h => h, fun h => h, rfl⟩

theorem Advances.trans ⦃l l' l'' : Linker⦄ (h : Advances l l') (h' : Advances l' l'') :
    Advances l l'' where
  shape := h.shape.trans h'.shape
  used x hx := h'.used x (h.used x hx)
  limit hlimit := h.limit (h'.limit hlimit)
  counted := h'.counted.trans h.counted

/-- Another table of the same shape with the same marks. -/
theorem advances_withTable {t : SymbolTable} (hshape : l.table.SameShape t)
    (hused : ∀ x, t.isInUse x = l.table.isInUse x) : Advances l (l.withTable t) where
  shape := hshape
  used x hx := (hused x).trans hx
  limit h := h
  counted := congrArg (l.visits + ·) (SymbolTable.unused_congr hshape.size hused)

theorem isDue_iff : l.isDue id = true ↔
    l.compilation.isOverLimit = false ∧ id.index < l.table.size ∧ l.table.isInUse id = false := by
  simp [isDue, and_assoc]

/-- What was not due is not due later. -/
theorem Advances.isDue_of_isDue (h : Advances l l') (hdue : l'.isDue id = true) :
    l.isDue id = true := by
  obtain ⟨hlimit, hlt, hfree⟩ := isDue_iff.mp hdue
  refine isDue_iff.mpr ⟨h.limit hlimit, h.shape.size ▸ hlt, ?_⟩
  rw [← Bool.not_eq_true] at hfree ⊢
  exact fun hused => hfree (h.used id hused)

theorem Advances.not_isDue (h : Advances l l') (hdue : l.isDue id = false) :
    l'.isDue id = false := by
  rw [← Bool.not_eq_true] at hdue ⊢
  exact fun hlater => hdue (h.isDue_of_isDue hlater)

theorem advances_enter (h : l.isDue id = true) : Advances l ((enter id).run l).2 := by
  obtain ⟨_, hlt, hfree⟩ := isDue_iff.mp h
  refine ⟨l.table.sameShape_mark id, fun x hx => ?_, fun h => h, ?_⟩
  · exact (SymbolTable.isInUse_mark hlt).mpr (.inr hx)
  · show l.visits + 1 + (l.table.mark id).unused = l.visits + l.table.unused
    rw [SymbolTable.unused_mark hlt hfree]
    omega

/-- Whatever the linker does, it advances. -/
theorem tracks_advances : Tracks Advances where
  refl := .refl
  trans := .trans
  add l d := ⟨.refl _, fun _ h => h, isOverLimit_of_add, rfl⟩
  setTypedef l i type := advances_withTable ⟨rfl, rfl, fun _ => rfl⟩ fun _ => rfl
  enter l id h := advances_enter h
  place l id parent fields := by
    refine advances_withTable (l.table.sameShape_modify id fun e => ?_) fun x => ?_
    · simp
    · exact l.table.isInUse_modify id x _
  put l l' id e e' h he hblank := by
    refine h.trans (advances_withTable (SymbolTable.sameShape_set ?_) fun x => ?_)
    · rw [h.shape.kinds, SymbolTable.kind?_eq he, Entity.kind_eq_of_blank hblank]
    · exact l'.table.isInUse_set id x e'

/-- The visits count what has come into use. -/
theorem Advances.visits_eq (h : Advances l l') :
    l'.visits = l.visits + (l.table.cameIntoUse l'.table).length := by
  have hcame := SymbolTable.length_cameIntoUse h.shape.size h.used
  have hcounted := h.counted
  omega

/-! ## Visits -/

theorem visit_of_not_due (h : l.isDue id = false) (budget : Nat) :
    ((visit budget id).run l).2 = l := by
  cases budget with
  | zero => rfl
  | succ budget =>
    rw [visit, run_get_bind, if_neg (Bool.not_eq_true _ ▸ h)]
    rfl

/-- A visit leaves its entity in use. -/
theorem isInUse_visit (h : l.isDue id = true) (budget : Nat) :
    ((visit (budget + 1) id).run l).2.table.isInUse id = true := by
  obtain ⟨_, hlt, _⟩ := isDue_iff.mp h
  rw [visit, run_get_bind, if_pos h, run_bind]
  have hahead := tracks_advances.entered (tracks_advances.visit budget) id ((enter id).run l).2
  exact hahead.used id (SymbolTable.isInUse_mark_self hlt)

/-! ## Calls -/

theorem link_of_not_due (h : l.isDue id = false) :
    link id l = if l.compilation.isOverLimit = true then .error .tooManyErrors l else .ok () l := by
  rw [link_eq, visit_of_not_due h]

theorem endState_link (id : EntityId) (l : Linker) :
    endState (link id l) = ((visit l.table.size id).run l).2 := by
  rw [link_eq]
  dsimp only
  split <;> rfl

/-- A relation that holds along visits holds along calls, whether they finish or stop. -/
theorem Tracks.link {R : Linker → Linker → Prop} (h : Tracks R) (id : EntityId) :
    EndsAlong R (link id) := fun l => by
  rw [endState_link]
  exact h.visit _ id l

theorem Tracks.linkRoots {R : Linker → Linker → Prop} (h : Tracks R) : EndsAlong R linkRoots :=
  .get_bind fun l => EndsAlong.forM h.trans h.refl (fun id _ => h.link id) l

/-- Behind a link its entity is not due. -/
theorem not_isDue_link (id : EntityId) (l : Linker) : (endState (link id l)).isDue id = false := by
  cases hdue : l.isDue id with
  | false => exact (tracks_advances.link id l).not_isDue hdue
  | true =>
      obtain ⟨_, hlt, _⟩ := isDue_iff.mp hdue
      obtain ⟨budget, hbudget⟩ := Nat.exists_eq_succ_of_ne_zero (Nat.ne_zero_of_lt hlt)
      have hused := isInUse_visit hdue budget
      rw [endState_link, hbudget, ← Bool.not_eq_true, isDue_iff]
      rintro ⟨-, -, hfree⟩
      cases hfree.symm.trans hused

/-- A link that is made once more ends as before. -/
theorem link_link (id : EntityId) (l : Linker) : link id (endState (link id l)) = link id l := by
  rw [link_of_not_due (not_isDue_link id l), endState_link, link_eq]

/-- Only too many errors stop a link. -/
theorem link_error {stop : Stop} (h : link id l = .error stop l') :
    stop = .tooManyErrors ∧ l'.compilation.isOverLimit = true := by
  rw [link_eq] at h
  dsimp only at h
  split at h
  next hlimit =>
    cases h
    exact ⟨rfl, hlimit⟩
  next => cases h

/-- Several links that have finished leave nothing due. -/
theorem forM_link_not_due {ids : List EntityId} {u : PUnit} (h : ids.forM link l = .ok u l') :
    (∀ id ∈ ids, l'.isDue id = false) ∧ (ids ≠ [] → l'.compilation.isOverLimit = false) := by
  induction ids generalizing l with
  | nil => exact ⟨nofun, fun hne => absurd rfl hne⟩
  | cons id ids ih =>
    obtain ⟨l₁, hfirst, hrest⟩ := forM_cons_ok.mp h
    obtain ⟨hids, hlimit⟩ := ih hrest
    have hdue := not_isDue_link id l
    have hahead := EndsAlong.forM Advances.trans .refl
      (fun id (_ : id ∈ ids) => tracks_advances.link id) l₁
    rw [hfirst] at hdue
    rw [hrest] at hahead
    refine ⟨List.forall_mem_cons.mpr ⟨hahead.not_isDue hdue, hids⟩, fun _ => ?_⟩
    cases ids with
    | nil =>
        obtain ⟨_, rfl⟩ := pure_ok.mp hrest
        exact (link_ok hfirst).2
    | cons _ _ => exact hlimit (List.cons_ne_nil _ _)

/-- Links of what is not due do nothing. -/
theorem forM_link_of_not_due {ids : List EntityId} (hdue : ∀ id ∈ ids, l.isDue id = false)
    (hlimit : ids ≠ [] → l.compilation.isOverLimit = false) : ids.forM link l = .ok ⟨⟩ l :=
  forM_of_fixed fun id hid => by
    have hlimit := hlimit (List.ne_nil_of_mem hid)
    rw [link_of_not_due (hdue id hid), if_neg (Bool.not_eq_true _ ▸ hlimit)]

/-- Several links that are made once more end as before. -/
theorem forM_link_forM_link (ids : List EntityId) (l : Linker) :
    ids.forM link (endState (ids.forM link l)) = ids.forM link l := by
  cases hrun : ids.forM link l with
  | ok u l' =>
      obtain ⟨hdue, hlimit⟩ := forM_link_not_due hrun
      exact forM_link_of_not_due hdue hlimit
  | error stop l' =>
      obtain ⟨before, id, after, l₁, rfl, -, hstop⟩ := forM_error hrun
      obtain ⟨rfl, hlimit⟩ := link_error hstop
      -- The state is over the limit, so the first link stops at once.
      have hfirst : ∀ x, link x l' = .error .tooManyErrors l' := fun x => by
        have hdue : l'.isDue x = false := by simp [isDue, hlimit]
        rw [link_of_not_due hdue, if_pos hlimit]
      cases before with
      | nil => exact forM_cons_error (hfirst id)
      | cons x _ => exact forM_cons_error (hfirst x)

theorem linkRoots_run (l : Linker) : linkRoots l = (l.table.idsOf .interface).forM link l := rfl

theorem linkRoots_linkRoots (l : Linker) : linkRoots (endState (linkRoots l)) = linkRoots l := by
  have hshape := (tracks_advances.linkRoots l).shape
  have hids : (endState (linkRoots l)).table.idsOf .interface = l.table.idsOf .interface := by
    simp only [SymbolTable.idsOf, SymbolTable.ids, hshape.size, hshape.kinds]
  rw [linkRoots_run (endState _), hids, linkRoots_run, forM_link_forM_link]

/-! ## Sequences of calls -/

/-- A call of the linker: for one entity, or for all interfaces. -/
inductive Call where
  | one (id : EntityId)
  | roots

/-- The action of a call. -/
def Call.action : Call → EStateM Stop Linker Unit
  | .one id => link id
  | .roots => linkRoots

/-- The state behind some calls, each of which may stop. -/
def after (l : Linker) (calls : List Call) : Linker :=
  calls.foldl (fun l call => endState (call.action l)) l

theorem advances_after (calls : List Call) (l : Linker) : Advances l (l.after calls) := by
  refine foldl_leads .refl .trans (fun call _ l => ?_) l
  cases call with
  | one id => exact tracks_advances.link id l
  | roots => exact tracks_advances.linkRoots l

/-- Linking is idempotent, in any state and with any errors: a call that is made once more ends
in the same way and in the same state.  Behind any calls the visits count the entities that have
come into use. -/
theorem linking_idempotent (l : Linker) (call : Call) (calls : List Call) :
    call.action (endState (call.action l)) = call.action l ∧
      (l.after calls).visits = l.visits + (l.table.cameIntoUse (l.after calls).table).length := by
  refine ⟨?_, (advances_after calls l).visits_eq⟩
  cases call with
  | one id => exact link_link id l
  | roots => exact linkRoots_linkRoots l

end Linker

end IdlModel
