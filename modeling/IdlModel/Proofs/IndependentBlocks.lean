import IdlModel.Proofs.ScriptBlocks

/-!
# Independence of blocks

Blocks for different types have no influence on each other.

*One block.*  What a plain block makes of its entity and how many errors it has depends on
this entity and on the names and kinds of all.  Neither names nor kinds change.  So a block
is a function of the table, `Block.runOn`, and its errors are one too, `Block.cost`.

*Many blocks.*  `Block.tally` counts the errors while the blocks are run on a table.  As long
as the limit is not passed a script of plain blocks does the same: `Script.run_ofBlocks`.

*Order.*  Tallies of blocks for different types commute.  So the blocks of a script can be
brought into any order that keeps those for one type in their order: `foldl_reorder`.

*Pruning.*  A block with an error leaves the table as it was, and can be left out.
-/

namespace IdlModel

open Script (Action Block Edit)

/-! ## Folding in another order -/

section Reorder

variable {σ β κ : Type} [DecidableEq κ] {P : σ → Prop} {f : σ → β → σ}

/-- A step that commutes with all steps before it can be made first. -/
theorem foldl_move_front (hkeep : ∀ s b, P s → P (f s b)) {b : β} {before : List β}
    (hcomm : ∀ s, P s → ∀ a ∈ before, f (f s b) a = f (f s a) b) (rest : List β) {s : σ}
    (hs : P s) : (before ++ b :: rest).foldl f s = (b :: (before ++ rest)).foldl f s := by
  induction before generalizing s with
  | nil => rfl
  | cons a before ih =>
    have hmoved := ih (fun s hs a ha => hcomm s hs a (List.mem_cons_of_mem _ ha)) (hkeep s a hs)
    rw [List.cons_append, List.foldl_cons, hmoved]
    simp only [List.cons_append, List.foldl_cons, hcomm s hs a List.mem_cons_self]

/-- If steps commute unless they have a key in common, then they can be made in any order
that keeps those of one key in their order. -/
theorem foldl_reorder (key : β → Option κ) (hkeep : ∀ s b, P s → P (f s b))
    (hcomm : ∀ s a b, P s → (key b = none ∨ key b ≠ key a) → f (f s b) a = f (f s a) b)
    {bs bs' : List β} (hperm : bs'.Perm bs)
    (hsame : ∀ k, bs'.filter (key · == some k) = bs.filter (key · == some k)) {s : σ} (hs : P s) :
    bs'.foldl f s = bs.foldl f s := by
  induction bs generalizing bs' s with
  | nil => rw [hperm.eq_nil]
  | cons b bs ih =>
    -- the first step with the key of `b` is `b` itself
    obtain ⟨before, rest, hsplit, hbefore⟩ : ∃ before rest, bs' = before ++ b :: rest ∧
        ∀ a ∈ before, key b = none ∨ key b ≠ key a := by
      cases hkey : key b with
      | none =>
          obtain ⟨before, rest, hsplit⟩ := List.append_of_mem (hperm.mem_iff.mpr List.mem_cons_self)
          exact ⟨before, rest, hsplit, fun _ _ => .inl rfl⟩
      | some k =>
          have hfilter := hsame k
          rw [List.filter_cons_of_pos (by simp [hkey]), List.filter_eq_cons_iff] at hfilter
          obtain ⟨before, rest, hsplit, hbefore, _⟩ := hfilter
          refine ⟨before, rest, hsplit, fun a ha => .inr fun heq => hbefore a ha ?_⟩
          exact beq_iff_eq.mpr heq.symm
    subst hsplit
    rw [foldl_move_front hkeep (fun s hs a ha => hcomm s a b hs (hbefore a ha)) rest hs,
      List.foldl_cons, List.foldl_cons]
    refine ih (List.perm_middle.symm.trans hperm).cons_inv (fun k => ?_) (hkeep s b hs)
    have hfilter := hsame k
    rw [List.filter_append] at hfilter ⊢
    by_cases hkey : key b = some k
    · have hnone : before.filter (key · == some k) = [] := by
        refine List.filter_eq_nil_iff.mpr fun a ha => ?_
        rcases hbefore a ha with hnone | hne
        · cases hkey.symm.trans hnone
        · exact fun heq => hne (hkey.trans (eq_of_beq heq).symm)
      rw [hnone, List.nil_append] at hfilter ⊢
      rw [List.filter_cons_of_pos (by simp [hkey]), List.filter_cons_of_pos (by simp [hkey])]
        at hfilter
      exact List.cons.inj hfilter |>.2
    · rwa [List.filter_cons_of_neg (by simp [hkey]), List.filter_cons_of_neg (by simp [hkey])]
        at hfilter

end Reorder

/-! ## One block -/

namespace Script.Block

variable {t t' : SymbolTable} {b : Block} {x y : EntityId} {e e' : Entity}

/-- What the edits of a block make of an entity: all of them are made, or none. -/
def revise (t : SymbolTable) (e : Entity) (b : Block) : Entity :=
  match Edit.applyAll t b.edits e with
  | .ok e' => e'
  | .error _ => e

/-- What a plain block makes of a table. -/
def runOn (t : SymbolTable) (b : Block) : SymbolTable :=
  match t.lookupType? b.name with
  | none => t
  | some x =>
      match t.entity? x with
      | none => t
      | some e => t.set x (b.revise t e)

/-- The number of errors of a plain block. -/
def cost (t : SymbolTable) (b : Block) : Nat :=
  match t.lookupType? b.name with
  | none => 1
  | some x => (t.entity? x).elim 0 (Edit.failures t b.edits)

theorem revise_of_failures (h : Edit.failures t b.edits e ≠ 0) : b.revise t e = e := by
  unfold revise
  split
  next e' hall => exact absurd (Edit.failures_eq_zero.mpr ⟨e', hall⟩) h
  next => rfl

theorem applyAll_of_failures (h : Edit.failures t b.edits e = 0) :
    Edit.applyAll t b.edits e = .ok (b.revise t e) := by
  obtain ⟨e', hall⟩ := Edit.failures_eq_zero.mp h
  rw [revise, hall]

theorem revise_congr (h : t.Renamed t') : b.revise t' e = b.revise t e := by
  rw [revise, revise, Edit.applyAll_congr h]

theorem editedBy_revise (t : SymbolTable) (b : Block) (e : Entity) :
    e.EditedBy t (fun _ => True) (b.revise t e) := by
  unfold revise
  split
  next e' hall => exact Edit.editedBy_of_applyAll (fun _ _ => trivial) hall
  next => exact .refl

theorem runOn_of_entity? (hname : t.lookupType? b.name = some x) (he : t.entity? x = some e) :
    b.runOn t = t.set x (b.revise t e) := by
  simp only [runOn, hname, he]

theorem cost_of_entity? (hname : t.lookupType? b.name = some x) (he : t.entity? x = some e) :
    b.cost t = Edit.failures t b.edits e := by
  simp only [cost, hname, he, Option.elim_some]

/-- A block is for no entity, or it is for one. -/
theorem runOn_cases (t : SymbolTable) (b : Block) :
    (b.runOn t = t ∧ ∀ x e, t.lookupType? b.name = some x → t.entity? x ≠ some e) ∨
      ∃ x e, t.lookupType? b.name = some x ∧ t.entity? x = some e := by
  cases hname : t.lookupType? b.name with
  | none => exact .inl ⟨by simp only [runOn, hname], nofun⟩
  | some x =>
      cases he : t.entity? x with
      | some e => exact .inr ⟨x, e, rfl, he⟩
      | none =>
          refine .inl ⟨by simp only [runOn, hname, he], fun y e hy => ?_⟩
          cases hy
          rw [he]
          exact nofun

theorem edited_runOn (t : SymbolTable) (b : Block) : t.Edited (fun _ _ => True) (b.runOn t) := by
  rcases runOn_cases t b with ⟨hsame, _⟩ | ⟨x, e, hname, he⟩
  · rw [hsame]
    exact .refl t
  · rw [runOn_of_entity? hname he]
    exact (SymbolTable.Edited.refl t).set he (editedBy_revise t b e)

theorem renamed_runOn (t : SymbolTable) (b : Block) : t.Renamed (b.runOn t) :=
  (edited_runOn t b).renamed

theorem lookupType?_runOn (t : SymbolTable) (b : Block) :
    (b.runOn t).lookupType? = t.lookupType? :=
  SymbolTable.lookupType?_congr (renamed_runOn t b).names

/-- A block is for one entity only. -/
theorem entity?_runOn (t : SymbolTable) (b : Block) (y : EntityId) :
    (b.runOn t).entity? y =
      (t.entity? y).map fun e => if t.lookupType? b.name == some y then b.revise t e else e := by
  rcases runOn_cases t b with ⟨hsame, hnone⟩ | ⟨x, e, hname, he⟩
  · rw [hsame]
    cases hy : t.entity? y with
    | none => rfl
    | some e =>
        have hne : ¬ (t.lookupType? b.name == some y) = true := fun h => hnone y e (eq_of_beq h) hy
        rw [Option.map_some, if_neg hne]
  · rw [runOn_of_entity? hname he, hname]
    by_cases hyx : y = x
    · subst hyx
      rw [SymbolTable.entity?_set_self (SymbolTable.lt_of_entity? he), he, Option.map_some,
        if_pos (beq_self_eq_true _)]
    · have hne : ¬ (some x == some y) = true := fun h => hyx (Option.some.inj (eq_of_beq h)).symm
      rw [t.entity?_set_of_ne hyx]
      simp only [if_neg hne, Option.map_id']

/-- A block with errors changes nothing. -/
theorem runOn_of_cost (h : b.cost t ≠ 0) : b.runOn t = t := by
  rcases runOn_cases t b with ⟨hsame, _⟩ | ⟨x, e, hname, he⟩
  · exact hsame
  · rw [cost_of_entity? hname he] at h
    rw [runOn_of_entity? hname he, revise_of_failures h, SymbolTable.set_self he]

/-! ### Two blocks -/

/-- A block is for no entity, or for another one than a second block. -/
def Apart (t : SymbolTable) (b a : Block) : Prop :=
  t.lookupType? b.name = none ∨ t.lookupType? b.name ≠ t.lookupType? a.name

section Two

variable {a : Block} (h : b.Apart t a)
include h

theorem Apart.symm : a.Apart t b := by
  rcases h with h | h
  · by_cases ha : t.lookupType? a.name = none
    · exact .inl ha
    · exact .inr (h ▸ ha)
  · exact .inr h.symm

/-- Blocks for different types have no influence on each other's errors. -/
theorem cost_runOn : a.cost (b.runOn t) = a.cost t := by
  have hrenamed := renamed_runOn t b
  unfold cost
  rw [lookupType?_runOn]
  split
  next => rfl
  next y hy =>
    have hne : ¬ (t.lookupType? b.name == some y) = true := by
      rcases h with h | h
      · simp [h]
      · rw [hy] at h
        exact fun heq => h (eq_of_beq heq)
    rw [entity?_runOn, Edit.failures_congr hrenamed]
    simp only [if_neg hne, Option.map_id']

/-- Blocks for different types can change their places. -/
theorem runOn_comm : a.runOn (b.runOn t) = b.runOn (a.runOn t) := by
  rcases runOn_cases t b with ⟨hsame, hnone⟩ | ⟨x, e, hname, he⟩
  · rw [hsame]
    rcases runOn_cases (a.runOn t) b with ⟨hsame', _⟩ | ⟨x, e', hname, he'⟩
    · exact hsame'.symm
    · rw [lookupType?_runOn] at hname
      obtain ⟨e, he, _⟩ := (renamed_runOn t a).entity_before he'
      exact absurd he (hnone x e hname)
  · rcases runOn_cases t a with ⟨hsame, hnone⟩ | ⟨y, d, hname', hd⟩
    · rw [hsame]
      rcases runOn_cases (b.runOn t) a with ⟨hsame', _⟩ | ⟨y, d', hname', hd'⟩
      · exact hsame'
      · rw [lookupType?_runOn] at hname'
        obtain ⟨d, hd, _⟩ := (renamed_runOn t b).entity_before hd'
        exact absurd hd (hnone y d hname')
    · have hxy : x ≠ y := by
        rintro rfl
        rcases h with h | h
        · cases hname.symm.trans h
        · exact h (hname.trans hname'.symm)
      have hb := runOn_of_entity? hname he
      have ha := runOn_of_entity? hname' hd
      have hrevise_a : a.revise (t.set x (b.revise t e)) d = a.revise t d :=
        revise_congr (hb ▸ renamed_runOn t b)
      have hrevise_b : b.revise (t.set y (a.revise t d)) e = b.revise t e :=
        revise_congr (ha ▸ renamed_runOn t a)
      have hba : a.runOn (t.set x (b.revise t e)) = (t.set x (b.revise t e)).set y (a.revise t d) := by
        rw [← hrevise_a]
        exact runOn_of_entity? hname' ((t.entity?_set_of_ne hxy.symm _).trans hd)
      have hab : b.runOn (t.set y (a.revise t d)) = (t.set y (a.revise t d)).set x (b.revise t e) := by
        rw [← hrevise_b]
        exact runOn_of_entity? hname ((t.entity?_set_of_ne hxy _).trans he)
      rw [hb, ha, hba, hab]
      exact t.set_comm hxy _ _

end Two

end Script.Block

/-! ## Many blocks -/

namespace Script

variable {t : SymbolTable} {b : Block} {bs bs' : List Block} {x : EntityId} {e : Entity}
variable {p : SymbolTable × Nat} {file : String} {c : Compilation}

/-- Run a block on a table, and count its errors. -/
def Block.tally (p : SymbolTable × Nat) (b : Block) : SymbolTable × Nat :=
  (b.runOn p.1, p.2 + b.cost p.1)

/-- A block is for an entity. -/
def Block.isFor (t : SymbolTable) (x : EntityId) (b : Block) : Bool :=
  t.lookupType? b.name == some x

/-- The number of errors does not sink. -/
theorem le_foldl_tally (t : SymbolTable) (n : Nat) (bs : List Block) :
    n ≤ (bs.foldl Block.tally (t, n)).2 := by
  induction bs generalizing t n with
  | nil => exact Nat.le_refl _
  | cons b bs ih => exact Nat.le_trans (Nat.le_add_right n _) (ih (b.runOn t) (n + b.cost t))

/-- What becomes of an entity comes from the blocks that are for it. -/
theorem entity?_foldl_tally (p : SymbolTable × Nat) (bs : List Block) (x : EntityId) :
    (bs.foldl Block.tally p).1.entity? x =
      (p.1.entity? x).map fun e =>
        (bs.filter (Block.isFor p.1 x)).foldl (fun e b => b.revise p.1 e) e := by
  induction bs generalizing p with
  | nil => simp
  | cons b bs ih =>
    have hrenamed := Block.renamed_runOn p.1 b
    have hfor : Block.isFor (b.runOn p.1) x = Block.isFor p.1 x := by
      funext a
      rw [Block.isFor, Block.lookupType?_runOn]
      rfl
    have hrevise : (fun (e : Entity) (a : Block) => a.revise (b.runOn p.1) e) =
        fun e a => a.revise p.1 e := by
      funext e a
      exact Block.revise_congr hrenamed
    rw [List.foldl_cons, ih]
    change ((b.runOn p.1).entity? x).map (fun e =>
      (bs.filter (Block.isFor (b.runOn p.1) x)).foldl (fun e a => a.revise (b.runOn p.1) e) e) = _
    rw [hfor, hrevise, Block.entity?_runOn, Option.map_map]
    congr 1
    funext e
    change (bs.filter (Block.isFor p.1 x)).foldl _ (if Block.isFor p.1 x b then _ else _) = _
    cases hb : Block.isFor p.1 x b with
    | true => rw [if_pos rfl, List.filter_cons_of_pos hb, List.foldl_cons]
    | false => rw [if_neg Bool.false_ne_true, List.filter_cons_of_neg (by simp [hb])]

/-- Blocks for different types can be brought into another order. -/
theorem foldl_tally_reorder (hperm : bs'.Perm bs)
    (hsame : ∀ x, bs'.filter (Block.isFor p.1 x) = bs.filter (Block.isFor p.1 x)) :
    bs'.foldl Block.tally p = bs.foldl Block.tally p := by
  refine foldl_reorder (P := fun q => q.1.lookupType? = p.1.lookupType?)
    (fun b : Block => p.1.lookupType? b.name) (fun q b hq => ?_) (fun q a b hq hkey => ?_) hperm hsame rfl
  · exact (Block.lookupType?_runOn q.1 b).trans hq
  · have hapart : b.Apart q.1 a := by
      unfold Block.Apart
      rwa [hq]
    simp only [Block.tally, Block.cost_runOn hapart, Block.cost_runOn hapart.symm,
      Block.runOn_comm hapart, Nat.add_right_comm]

end Script

/-! ## Runs -/

namespace Compilation

variable {b : Block} {file : String} {c : Compilation}

/-- A plain block has at most as many errors as it costs.  If the limit is not passed, it
has just as many, and it does what it does on a table. -/
theorem applyBlock_tally (hplain : b.IsPlain) :
    (c.applyBlock file b).settings = c.settings ∧
      c.errors ≤ (c.applyBlock file b).errors ∧
      (c.applyBlock file b).errors ≤ c.errors + b.cost c.table ∧
      ((c.applyBlock file b).isOverLimit = false →
        ((c.applyBlock file b).table, (c.applyBlock file b).errors) =
          b.tally (c.table, c.errors)) := by
  cases hname : c.table.lookupType? b.name with
  | none =>
      have hrun : c.applyBlock file b = c.report (.unknownType b.name) ⟨file, b.line⟩ := by
        simp only [applyBlock, hname]
      have hissue : (Issue.unknownType b.name).severity = .error := rfl
      have herrors := errors_report_of_error hissue c ⟨file, b.line⟩
      have hcost : b.cost c.table = 1 := by simp only [Block.cost, hname]
      have htable : b.runOn c.table = c.table := by simp only [Block.runOn, hname]
      rw [hrun, Block.tally, htable, hcost, herrors]
      exact ⟨rfl, Nat.le_succ _, Nat.le_refl _, fun _ => rfl⟩
  | some x =>
      cases he : c.table.entity? x with
      | none =>
          have hrun : c.applyBlock file b = c := by simp only [applyBlock, hname, he]
          have hcost : b.cost c.table = 0 := by simp only [Block.cost, hname, he, Option.elim_none]
          have htable : b.runOn c.table = c.table := by simp only [Block.runOn, hname, he]
          rw [hrun, Block.tally, htable, hcost]
          exact ⟨rfl, Nat.le_refl _, Nat.le_refl _, fun _ => rfl⟩
      | some e =>
          obtain ⟨hsettings, hle, hge, hfinished⟩ :=
            @errors_applyBlock c file x e b hplain hname he
          have hcost := Block.cost_of_entity? hname he
          rw [← hcost] at hge hfinished
          refine ⟨hsettings, hle, hge, fun hlimit => ?_⟩
          have herrors := hfinished hlimit
          rw [Block.tally, herrors]
          refine Prod.ext ?_ rfl
          by_cases hzero : b.cost c.table = 0
          · rw [hzero, Nat.add_zero] at herrors
            have hlimit' := (isOverLimit_congr herrors hsettings).symm.trans hlimit
            have hall := Block.applyAll_of_failures (hcost.symm.trans hzero)
            rw [applyBlock_of_applyAll hplain hname he hlimit' hall]
            exact (Block.runOn_of_entity? hname he).symm
          · have hlt : c.errors < (c.applyBlock file b).errors := by omega
            rw [table_applyBlock_of_lt hplain hlt]
            exact (Block.runOn_of_cost hzero).symm

end Compilation

namespace Script

variable {t : SymbolTable} {b : Block} {bs bs' : List Block} {x : EntityId} {e : Entity}
variable {file : String} {c : Compilation}

/-- A script that is made of blocks. -/
def ofBlocks (file : String) (bs : List Block) : Script := { file, items := bs.map .block }

theorem run_ofBlocks_nil (file : String) (c : Compilation) :
    (ofBlocks file []).run c = if c.isOverLimit then .error .tooManyErrors c else .ok () c :=
  checkLimit_run c

theorem run_ofBlocks_cons (file : String) (b : Block) (bs : List Block) (c : Compilation) :
    (ofBlocks file (b :: bs)).run c =
      if c.isOverLimit then .error .tooManyErrors c
      else (ofBlocks file bs).run (c.applyBlock file b) := by
  let step (item : Item) : CompileM Unit := do
    checkLimit
    modify (·.applyItem file item)
  change (((b :: bs).map Item.block).forM step >>= fun _ => checkLimit) c = _
  rw [List.map_cons]
  split
  next hover =>
    have hpoll : checkLimit c = .error .tooManyErrors c := by rw [checkLimit_run, if_pos hover]
    exact bind_error (forM_cons_error (f := step) (bind_error hpoll))
  next hlimit =>
    have hpoll : checkLimit c = .ok () c := by rw [checkLimit_run, if_neg hlimit]
    have hstep : step (.block b) c = .ok () (c.applyBlock file b) := bind_run hpoll
    change EStateM.bind _ _ c = _
    rw [EStateM.bind, forM_cons_run hstep]
    rfl

/-- Blocks do not pass the limit. -/
def StaysWithin (bs : List Block) (c : Compilation) : Prop :=
  (bs.foldl Block.tally (c.table, c.errors)).2 ≤ c.settings.errorLimit

theorem StaysWithin.not_isOverLimit (h : StaysWithin bs c) : c.isOverLimit = false :=
  Compilation.not_isOverLimit_iff.mpr (Nat.le_trans (le_foldl_tally c.table c.errors bs) h)

/-- The first of some blocks that stay within the limit does what it does on a table, and the
others stay within the limit behind it. -/
theorem StaysWithin.tail (h : StaysWithin (b :: bs) c) (hplain : b.IsPlain) (file : String) :
    ((c.applyBlock file b).table, (c.applyBlock file b).errors) = b.tally (c.table, c.errors) ∧
      StaysWithin bs (c.applyBlock file b) := by
  obtain ⟨hsettings, _, hge, htally⟩ := @Compilation.applyBlock_tally b file c hplain
  have hlimit : (c.applyBlock file b).isOverLimit = false := by
    rw [Compilation.not_isOverLimit_iff, hsettings]
    refine Nat.le_trans hge (Nat.le_trans ?_ h)
    exact le_foldl_tally (b.runOn c.table) (c.errors + b.cost c.table) bs
  refine ⟨htally hlimit, ?_⟩
  rw [StaysWithin, htally hlimit, hsettings]
  exact h

/-- A script that stays within the limit finishes, and does what its blocks do on a table. -/
theorem run_ofBlocks (hplain : ∀ b ∈ bs, b.IsPlain) (h : StaysWithin bs c) (file : String) :
    ∃ c', (ofBlocks file bs).run c = .ok () c' ∧
      (c'.table, c'.errors) = bs.foldl Block.tally (c.table, c.errors) := by
  have hlimit := h.not_isOverLimit
  induction bs generalizing c with
  | nil => exact ⟨c, by rw [run_ofBlocks_nil, hlimit]; rfl, rfl⟩
  | cons b bs ih =>
    obtain ⟨hfirst, hrest⟩ := List.forall_mem_cons.mp hplain
    obtain ⟨htally, hwithin⟩ := h.tail hfirst file
    obtain ⟨c', hrun, hend⟩ := ih hrest hwithin hwithin.not_isOverLimit
    rw [run_ofBlocks_cons, hlimit, List.foldl_cons, ← htally]
    exact ⟨c', hrun, hend⟩

/-- A script that does not pass the limit stays within it. -/
theorem staysWithin_of_run (hplain : ∀ b ∈ bs, b.IsPlain)
    (h : (endState ((ofBlocks file bs).run c)).isOverLimit = false) : StaysWithin bs c := by
  induction bs generalizing c with
  | nil =>
    rw [run_ofBlocks_nil] at h
    split at h
    next hover => exact absurd (hover.symm.trans h) (by decide)
    next => exact Compilation.not_isOverLimit_iff.mp h
  | cons b bs ih =>
    obtain ⟨hfirst, hrest⟩ := List.forall_mem_cons.mp hplain
    obtain ⟨hsettings, _, _, htally⟩ := @Compilation.applyBlock_tally b file c hfirst
    rw [run_ofBlocks_cons] at h
    split at h
    next hover => exact absurd (hover.symm.trans h) (by decide)
    next =>
      have hwithin := ih hrest h
      have hfirst := htally hwithin.not_isOverLimit
      rw [StaysWithin, hfirst, hsettings] at hwithin
      exact hwithin

/-! ## Blocks without errors -/

/-- The blocks of a script that report no error when it is run. -/
def cleanBlocks (file : String) : List Block → Compilation → List Block
  | [], _ => []
  | b :: bs, c =>
      if (c.applyBlock file b).errors = c.errors then
        b :: cleanBlocks file bs (c.applyBlock file b)
      else cleanBlocks file bs (c.applyBlock file b)

/-- What a block does to an entity, if it is clean and is for the entity, and else nothing. -/
theorem entity?_tally {t' : SymbolTable} {n n' : Nat} (htally : (t', n') = b.tally (t, n))
    (he : t.entity? x = some e) :
    (n' = n → b.isFor t x = true → ∃ e', t'.entity? x = some e' ∧
        Edit.applyAll t b.edits e = .ok e') ∧
      (n' ≠ n ∨ b.isFor t x = false → t'.entity? x = some e) := by
  obtain ⟨rfl, hcount⟩ := Prod.mk.inj htally
  dsimp only at hcount ⊢
  constructor
  · intro hclean hfor
    have hname : t.lookupType? b.name = some x := eq_of_beq hfor
    have hcost : b.cost t = 0 := by omega
    rw [Block.cost_of_entity? hname he] at hcost
    refine ⟨b.revise t e, ?_, Block.applyAll_of_failures hcost⟩
    rw [Block.runOn_of_entity? hname he]
    exact SymbolTable.entity?_set_self (SymbolTable.lt_of_entity? he) _
  · rintro (hfailed | hother)
    · have hcost : b.cost t ≠ 0 := by omega
      rwa [Block.runOn_of_cost hcost]
    · have hname : ¬ (t.lookupType? b.name == some x) = true := by
        rw [← Block.isFor, hother]
        exact Bool.false_ne_true
      rw [Block.entity?_runOn, he, Option.map_some, if_neg hname]

/-- Behind a script an entity is as if all the clean blocks that are for it had made their
edits, and no other block had been there. -/
theorem applyAll_cleanBlocks (hplain : ∀ b ∈ bs, b.IsPlain) (h : StaysWithin bs c)
    (he : c.table.entity? x = some e) (file : String) :
    ∃ e', Edit.applyAll c.table
        (((cleanBlocks file bs c).filter (Block.isFor c.table x)).flatMap Block.edits) e = .ok e' ∧
      (bs.foldl Block.tally (c.table, c.errors)).1.entity? x = some e' := by
  induction bs generalizing c e with
  | nil => exact ⟨e, rfl, he⟩
  | cons b bs ih =>
    obtain ⟨hfirst, hrest⟩ := List.forall_mem_cons.mp hplain
    obtain ⟨htally, hwithin⟩ := h.tail hfirst file
    obtain ⟨hmade, hleft⟩ := entity?_tally htally he
    have htable : (c.applyBlock file b).table = b.runOn c.table := congrArg Prod.fst htally
    have hfor : Block.isFor (c.applyBlock file b).table x = Block.isFor c.table x := by
      funext a
      rw [Block.isFor, htable, Block.lookupType?_runOn]
      rfl
    have hedits : Edit.applyAll (c.applyBlock file b).table = Edit.applyAll c.table :=
      htable ▸ Edit.applyAll_congr (Block.renamed_runOn c.table b)
    rw [List.foldl_cons, ← htally, cleanBlocks]
    by_cases hclean : (c.applyBlock file b).errors = c.errors
    · rw [if_pos hclean]
      cases hb : b.isFor c.table x with
      | true =>
          obtain ⟨e₁, he₁, happly⟩ := hmade hclean hb
          obtain ⟨e', hall, he'⟩ := ih hrest hwithin he₁
          rw [hfor, hedits] at hall
          refine ⟨e', ?_, he'⟩
          rw [List.filter_cons_of_pos hb, List.flatMap_cons, Edit.applyAll_append _ _ happly, hall]
      | false =>
          obtain ⟨e', hall, he'⟩ := ih hrest hwithin (hleft (.inr hb))
          rw [hfor, hedits] at hall
          rw [List.filter_cons_of_neg (by simp [hb])]
          exact ⟨e', hall, he'⟩
    · obtain ⟨e', hall, he'⟩ := ih hrest hwithin (hleft (.inl hclean))
      rw [hfor, hedits] at hall
      rw [if_neg hclean]
      exact ⟨e', hall, he'⟩

/-- Some of the blocks that report an error when a script is run are left out. -/
inductive Pruned (file : String) : Compilation → List Block → List Block → Prop where
  | nil {c : Compilation} : Pruned file c [] []
  | keep {c : Compilation} {b : Block} {bs bs' : List Block} :
      Pruned file (c.applyBlock file b) bs bs' → Pruned file c (b :: bs) (b :: bs')
  | drop {c : Compilation} {b : Block} {bs bs' : List Block} :
      c.errors < (c.applyBlock file b).errors → Pruned file (c.applyBlock file b) bs bs' →
        Pruned file c (b :: bs) bs'

theorem Pruned.sublist (h : Pruned file c bs bs') : bs'.Sublist bs := by
  induction h with
  | nil => exact .slnil
  | keep _ ih => exact ih.cons_cons _
  | drop _ _ ih => exact ih.cons _

/-- What is left does the same to the table, with at most as many errors. -/
theorem Pruned.foldl_tally (hpruned : Pruned file c bs bs') (hplain : ∀ b ∈ bs, b.IsPlain)
    (h : StaysWithin bs c) {n : Nat} (hn : n ≤ c.errors) :
    (bs'.foldl Block.tally (c.table, n)).1 = (bs.foldl Block.tally (c.table, c.errors)).1 ∧
      (bs'.foldl Block.tally (c.table, n)).2 ≤ (bs.foldl Block.tally (c.table, c.errors)).2 := by
  induction hpruned generalizing n with
  | nil => exact ⟨rfl, hn⟩
  | @keep c b bs bs' _ ih =>
      obtain ⟨hfirst, hrest⟩ := List.forall_mem_cons.mp hplain
      obtain ⟨htally, hwithin⟩ := h.tail hfirst file
      obtain ⟨htable, herrors⟩ := Prod.mk.inj htally
      have hsame := @ih hrest hwithin (n + b.cost c.table) (herrors ▸ Nat.add_le_add_right hn _)
      rw [htally, htable] at hsame
      exact hsame
  | @drop c b bs bs' hfailed _ ih =>
      obtain ⟨hfirst, hrest⟩ := List.forall_mem_cons.mp hplain
      obtain ⟨htally, hwithin⟩ := h.tail hfirst file
      have hsame := @ih hrest hwithin n (Nat.le_trans hn (Nat.le_of_lt hfailed))
      rw [htally, Compilation.table_applyBlock_of_lt hfirst hfailed] at hsame
      exact hsame

/-! ## Independence -/

/-- Blocks are independent.  If a script of plain blocks stays within the limit, then every
entity is edited by the clean blocks for it and by nothing else.  What the script makes of
the table depends neither on the order of blocks for different types nor on blocks with
errors. -/
theorem run_ofBlocks_independent (hplain : ∀ b ∈ bs, b.IsPlain)
    (h : (endState ((ofBlocks file bs).run c)).isOverLimit = false) :
    ∃ c', (ofBlocks file bs).run c = .ok () c' ∧
      (∀ x, c'.table.entity? x = (c.table.entity? x).map fun e =>
        (bs.filter (Block.isFor c.table x)).foldl (fun e b => b.revise c.table e) e) ∧
      (∀ x e, c.table.entity? x = some e →
        ∃ e', Edit.applyAll c.table
            (((cleanBlocks file bs c).filter (Block.isFor c.table x)).flatMap Block.edits) e =
              .ok e' ∧
          c'.table.entity? x = some e') ∧
      (∀ bs', bs'.Perm bs →
        (∀ x, bs'.filter (Block.isFor c.table x) = bs.filter (Block.isFor c.table x)) →
          ∃ c'', (ofBlocks file bs').run c = .ok () c'' ∧ c''.table = c'.table) ∧
      ∀ bs', Pruned file c bs bs' →
        ∃ c'', (ofBlocks file bs').run c = .ok () c'' ∧ c''.table = c'.table := by
  have hwithin := staysWithin_of_run hplain h
  obtain ⟨c', hrun, hend⟩ := run_ofBlocks hplain hwithin file
  have htable : c'.table = (bs.foldl Block.tally (c.table, c.errors)).1 := congrArg Prod.fst hend
  refine ⟨c', hrun, fun x => ?_, fun x e he => ?_, fun bs' hperm hsame => ?_, fun bs' hpruned => ?_⟩
  · rw [htable, entity?_foldl_tally]
  · rw [htable]
    exact applyAll_cleanBlocks hplain hwithin he file
  · have hfold := foldl_tally_reorder (p := (c.table, c.errors)) hperm hsame
    have hplain' : ∀ b ∈ bs', b.IsPlain := fun b hb => hplain b (hperm.mem_iff.mp hb)
    have hwithin' : StaysWithin bs' c :=
      Nat.le_trans (Nat.le_of_eq (congrArg Prod.snd hfold)) hwithin
    obtain ⟨c'', hrun', hend'⟩ := run_ofBlocks hplain' hwithin' file
    exact ⟨c'', hrun', congrArg Prod.fst (hend'.trans (hfold.trans hend.symm))⟩
  · obtain ⟨hfold, hle⟩ := hpruned.foldl_tally hplain hwithin (Nat.le_refl c.errors)
    have hplain' : ∀ b ∈ bs', b.IsPlain := fun b hb => hplain b (hpruned.sublist.mem hb)
    obtain ⟨c'', hrun', hend'⟩ := run_ofBlocks hplain' (Nat.le_trans hle hwithin) file
    exact ⟨c'', hrun', (congrArg Prod.fst hend').trans (hfold.trans htable.symm)⟩

/-- The block of `Node` with the line `.name = Branch`. -/
def renamedBranch : Block :=
  { name := "Node", line := 5, actions := [⟨.edit (.setProperty "name" "Branch"), 6⟩] }

/-- A block of no type. -/
def strayBlock : Block :=
  { name := "Twig", line := 7, actions := [⟨.edit .patch, 8⟩] }

/-- Of the blocks of `Node` the first one fails, and only the second one is made. -/
theorem run_ofBlocks_independent_node :
    (∀ b ∈ [Compilation.prefixedLeaf, strayBlock, renamedBranch], b.IsPlain) ∧
      ∃ c', (ofBlocks "node.tr" [Compilation.prefixedLeaf, strayBlock, renamedBranch]).run
          Compilation.nodeOnly = .ok () c' ∧
        ∃ e', Edit.applyAll Compilation.nodeOnly.table renamedBranch.edits Compilation.node =
            .ok e' ∧
          c'.table.entity? ⟨0⟩ = some e' := by
  have hplain : ∀ b ∈ [Compilation.prefixedLeaf, strayBlock, renamedBranch], b.IsPlain := by
    intro b hb a ha
    simp only [List.mem_cons, List.not_mem_nil, or_false] at hb
    rcases hb with rfl | rfl | rfl <;>
      simp only [Compilation.prefixedLeaf, strayBlock, renamedBranch, List.mem_cons,
        List.not_mem_nil, or_false] at ha
    · rcases ha with rfl | rfl <;> exact ⟨_, rfl⟩
    · exact ⟨_, congrArg Action.effect ha⟩
    · exact ⟨_, congrArg Action.effect ha⟩
  have hlimit : (endState ((ofBlocks "node.tr"
      [Compilation.prefixedLeaf, strayBlock, renamedBranch]).run
        Compilation.nodeOnly)).isOverLimit = false := by decide +kernel
  obtain ⟨c', hrun, -, hclean, -, -⟩ := run_ofBlocks_independent hplain hlimit
  obtain ⟨e', hall, he'⟩ := hclean ⟨0⟩ Compilation.node rfl
  have hedits : ((cleanBlocks "node.tr" [Compilation.prefixedLeaf, strayBlock, renamedBranch]
      Compilation.nodeOnly).filter
        (Block.isFor Compilation.nodeOnly.table ⟨0⟩)).flatMap Block.edits =
      renamedBranch.edits := by decide +kernel
  rw [hedits] at hall
  exact ⟨hplain, c', hrun, e', hall, he'⟩

end Script

end IdlModel
