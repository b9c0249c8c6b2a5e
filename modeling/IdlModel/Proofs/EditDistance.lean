import IdlModel.Text.EditDistance
import Mathlib.Data.List.Basic
import Mathlib.Order.Bounds.Defs

/-!
# What the edit distance counts

The distance of two texts is the least number of single edits that turn one into the other:
`isLeast_editDistance`.

*Edits.*  `EditedIn n a b` says that `n` insertions, deletions and replacements of single
characters, one after the other, turn `a` into `b`.

*Cost.*  `cost` is the distance by its recursion on the first characters.  So many edits suffice
(`editedIn_cost`).  Fewer do not, since an edit of the second text changes the cost by one at most
(`cost_le_of_singleEdit`).

*Rows.*  A row is computed from the front, so its cells are costs of prefixes, read backwards:
`nextRow_cells`.  A cell takes the diagonal if the characters are equal.  That is the least of the
three because neighbours differ by one at most (`cost_cons_self`).
-/

namespace IdlModel.Text

variable {a b c : List Char} {m n : Nat}

/-! ## Edits -/

/-- One character is inserted, deleted or replaced. -/
inductive SingleEdit : List Char → List Char → Prop
  | insertion (before behind : List Char) (x : Char) :
      SingleEdit (before ++ behind) (before ++ x :: behind)
  | deletion (before behind : List Char) (x : Char) :
      SingleEdit (before ++ x :: behind) (before ++ behind)
  | replacement (before behind : List Char) (x y : Char) :
      SingleEdit (before ++ x :: behind) (before ++ y :: behind)

/-- So many edits, one after the other, turn the first text into the second. -/
inductive EditedIn (a : List Char) : Nat → List Char → Prop
  | none : EditedIn a 0 a
  | more {n : Nat} {b c : List Char} (edits : EditedIn a n b) (edit : SingleEdit b c) :
      EditedIn a (n + 1) c

theorem SingleEdit.cons (x : Char) (h : SingleEdit a b) : SingleEdit (x :: a) (x :: b) := by
  cases h with
  | insertion before behind y => exact .insertion (x :: before) behind y
  | deletion before behind y => exact .deletion (x :: before) behind y
  | replacement before behind y z => exact .replacement (x :: before) behind y z

theorem SingleEdit.reverse (h : SingleEdit a b) : SingleEdit a.reverse b.reverse := by
  cases h with
  | insertion before behind x =>
      simpa using SingleEdit.insertion behind.reverse before.reverse x
  | deletion before behind x =>
      simpa using SingleEdit.deletion behind.reverse before.reverse x
  | replacement before behind x y =>
      simpa using SingleEdit.replacement behind.reverse before.reverse x y

theorem EditedIn.cons (x : Char) (h : EditedIn a n b) : EditedIn (x :: a) n (x :: b) := by
  induction h with
  | none => exact .none
  | more _ edit ih => exact ih.more (edit.cons x)

theorem EditedIn.reverse (h : EditedIn a n b) : EditedIn a.reverse n b.reverse := by
  induction h with
  | none => exact .none
  | more _ edit ih => exact ih.more edit.reverse

theorem editedIn_reverse : EditedIn a.reverse n b.reverse ↔ EditedIn a n b := by
  constructor
  · intro h
    simpa using h.reverse
  · exact EditedIn.reverse

theorem EditedIn.min (hm : EditedIn a m b) (hn : EditedIn a n b) : EditedIn a (min m n) b := by
  obtain h | h := Nat.le_total m n
  · rwa [Nat.min_eq_left h]
  · rwa [Nat.min_eq_right h]

/-! ## Cost -/

/-- The distance by recursion.  The first characters are matched, or one of them stands alone. -/
def cost : List Char → List Char → Nat
  | [], b => b.length
  | a, [] => a.length
  | x :: a, y :: b =>
      min (cost a b + if x = y then 0 else 1) (min (cost a (y :: b) + 1) (cost (x :: a) b + 1))

@[simp] theorem cost_nil_left (b : List Char) : cost [] b = b.length := by rw [cost]

@[simp] theorem cost_nil_right (a : List Char) : cost a [] = a.length := by
  cases a with
  | nil => rw [cost]
  | cons x a => rw [cost]; simp

theorem cost_cons_cons (x y : Char) (a b : List Char) :
    cost (x :: a) (y :: b) =
      min (cost a b + if x = y then 0 else 1)
        (min (cost a (y :: b) + 1) (cost (x :: a) b + 1)) := by
  rw [cost]

/-- Matching the first characters costs one at most. -/
theorem cost_cons_cons_le (x y : Char) (a b : List Char) :
    cost (x :: a) (y :: b) ≤ cost a b + 1 := by
  rw [cost_cons_cons]
  split
  · omega
  · omega

/-- A character more in the second text costs one at most. -/
theorem cost_cons_right_le (y : Char) (a b : List Char) : cost a (y :: b) ≤ cost a b + 1 := by
  cases a with
  | nil => simp
  | cons x a =>
      rw [cost_cons_cons]
      omega

/-- A character more in the first text costs one at most. -/
theorem cost_cons_left_le (x : Char) (a b : List Char) : cost (x :: a) b ≤ cost a b + 1 := by
  cases b with
  | nil => simp
  | cons y b =>
      rw [cost_cons_cons]
      omega

/-- A character more in the first text saves one at most. -/
theorem cost_le_cons_left (x : Char) (a b : List Char) : cost a b ≤ cost (x :: a) b + 1 := by
  induction b with
  | nil =>
      simp only [cost_nil_right, List.length_cons]
      omega
  | cons y b ih =>
      have hright := cost_cons_right_le y a b
      rw [cost_cons_cons]
      omega

/-- A character more in the second text saves one at most. -/
theorem cost_le_cons_right (y : Char) (a b : List Char) : cost a b ≤ cost a (y :: b) + 1 := by
  induction a with
  | nil =>
      simp only [cost_nil_left, List.length_cons]
      omega
  | cons x a ih =>
      have hleft := cost_cons_left_le x a b
      rw [cost_cons_cons]
      omega

/-- Equal first characters are best matched with each other. -/
theorem cost_cons_self (x : Char) (a b : List Char) : cost (x :: a) (x :: b) = cost a b := by
  have hleft := cost_le_cons_left x a b
  have hright := cost_le_cons_right x a b
  rw [cost_cons_cons, if_pos rfl]
  omega

theorem cost_cons_of_ne {x y : Char} (h : x ≠ y) (a b : List Char) :
    cost (x :: a) (y :: b) =
      1 + min (min (cost a b) (cost a (y :: b))) (cost (x :: a) b) := by
  rw [cost_cons_cons, if_neg h]
  omega

theorem cost_self (a : List Char) : cost a a = 0 := by
  induction a with
  | nil => simp
  | cons x a ih => rw [cost_cons_self, ih]

/-! ## Edits and costs -/

theorem editedIn_nil_left (b : List Char) : EditedIn [] b.length b := by
  induction b with
  | nil => exact .none
  | cons y b ih => exact ih.more (.insertion [] b y)

theorem editedIn_nil_right (a : List Char) : EditedIn a a.length [] := by
  induction a with
  | nil => exact .none
  | cons x a ih => exact (ih.cons x).more (.deletion [] [] x)

/-- As many edits as the cost turn the first text into the second. -/
theorem editedIn_cost (a b : List Char) : EditedIn a (cost a b) b := by
  fun_induction cost a b with
  | case1 b => exact editedIn_nil_left b
  | case2 a => exact editedIn_nil_right a
  | case3 x a y b ihMatched ihLeft ihRight =>
      have hmatched : EditedIn (x :: a) (cost a b + if x = y then 0 else 1) (y :: b) := by
        split
        next h => exact h ▸ ihMatched.cons x
        next => exact (ihMatched.cons x).more (.replacement [] b x y)
      have hleft : EditedIn (x :: a) (cost a (y :: b) + 1) (y :: b) :=
        (ihLeft.cons x).more (.deletion [] (y :: b) x)
      have hright : EditedIn (x :: a) (cost (x :: a) b + 1) (y :: b) :=
        ihRight.more (.insertion [] b y)
      exact hmatched.min (hleft.min hright)

/-- An edit that is made behind some characters changes no more than one that is made without
them. -/
theorem cost_append_le (h : ∀ a, cost a c ≤ cost a b + 1) (before a : List Char) :
    cost a (before ++ c) ≤ cost a (before ++ b) + 1 := by
  induction before generalizing a with
  | nil => exact h a
  | cons y before ih =>
      rw [List.cons_append, List.cons_append]
      induction a with
      | nil =>
          have := ih []
          simp only [cost_nil_left, List.length_cons] at this ⊢
          omega
      | cons x a ihLeft =>
          have hboth := ih a
          have hright := ih (x :: a)
          rw [cost_cons_cons, cost_cons_cons]
          omega

/-- An edit of the second text raises the cost by one at most. -/
theorem cost_le_of_singleEdit (h : SingleEdit b c) (a : List Char) : cost a c ≤ cost a b + 1 := by
  cases h with
  | insertion before behind x =>
      exact cost_append_le (fun a => cost_cons_right_le x a behind) before a
  | deletion before behind x =>
      exact cost_append_le (fun a => cost_le_cons_right x a behind) before a
  | replacement before behind x y =>
      refine cost_append_le (fun a => ?_) before a
      cases a with
      | nil => simp
      | cons z a =>
          have hmatched := cost_cons_cons_le z y a behind
          have hright := cost_cons_right_le y (z :: a) behind
          have hsaved := cost_le_cons_right x a behind
          rw [cost_cons_cons z x]
          omega

/-- Fewer edits than the cost do not do. -/
theorem cost_le_of_editedIn (h : EditedIn a n b) : cost a b ≤ n := by
  induction h with
  | none => exact Nat.le_of_eq (cost_self a)
  | more _ edit ih => exact Nat.le_trans (cost_le_of_singleEdit edit a) (Nat.succ_le_succ ih)

theorem isLeast_cost (a b : List Char) : IsLeast {n | EditedIn a n b} (cost a b) :=
  ⟨editedIn_cost a b, fun _ h => cost_le_of_editedIn h⟩

/-! ## Rows -/

/-- The costs of a text to each of the texts that end with `behind` and start with the first
characters of `target`, the last of them first. -/
def cells (a behind : List Char) : (target : List Char) → List Nat
  | [] => [cost a behind]
  | y :: target => cost a behind :: cells a (y :: behind) target

theorem cells_eq_cons (a behind target : List Char) :
    cells a behind target = cost a behind :: (cells a behind target).tail := by
  cases target with
  | nil => rfl
  | cons y target => rfl

/-- Each cell of a row comes from the one diagonally above, the one above and the one before. -/
theorem rowCells_cells (x : Char) (a behind target : List Char) :
    rowCells x (cost (x :: a) behind) (cells a behind target) target =
      (cells (x :: a) behind target).tail := by
  induction target generalizing behind with
  | nil => rfl
  | cons y target ih =>
      have hcell : (if x = y then cost a behind
          else 1 + min (min (cost a behind) (cost a (y :: behind))) (cost (x :: a) behind)) =
            cost (x :: a) (y :: behind) := by
        split
        next h => rw [h, cost_cons_self]
        next h => rw [cost_cons_of_ne h]
      have hrow := ih (y :: behind)
      rw [cells_eq_cons a] at hrow
      rw [cells, cells_eq_cons a, rowCells, hcell, hrow, cells, List.tail_cons,
        ← cells_eq_cons]

theorem nextRow_cells (x : Char) (a target : List Char) :
    nextRow target (cells a [] target) x = cells (x :: a) [] target := by
  have hfirst : (cells a [] target).headD 0 + 1 = cost (x :: a) [] := by
    rw [cells_eq_cons]
    simp
  rw [nextRow, hfirst, rowCells_cells, ← cells_eq_cons]

theorem foldl_nextRow_cells (source a target : List Char) :
    source.foldl (nextRow target) (cells a [] target) = cells (source.reverse ++ a) [] target := by
  induction source generalizing a with
  | nil => rfl
  | cons x source ih =>
      rw [List.foldl_cons, nextRow_cells, ih, List.reverse_cons, List.append_assoc,
        List.singleton_append]

/-- The row of the empty prefix counts the characters of the other text. -/
theorem cells_nil (behind target : List Char) :
    cells [] behind target = List.range' behind.length (target.length + 1) := by
  induction target generalizing behind with
  | nil => simp [cells]
  | cons y target ih => rw [cells, ih, cost_nil_left, List.length_cons, List.length_cons,
      ← List.range'_succ]

theorem getLastD_cells (a behind target : List Char) :
    (cells a behind target).getLastD 0 = cost a (target.reverse ++ behind) := by
  induction target generalizing behind with
  | nil => rfl
  | cons y target ih =>
      rw [List.reverse_cons, List.append_assoc, List.singleton_append, ← ih, cells,
        cells_eq_cons a (y :: behind)]
      rfl

/-- The distance is the cost of the texts, read backwards. -/
theorem distance_eq (source target : List Char) :
    distance source target = cost source.reverse target.reverse := by
  have hstart : List.range (target.length + 1) = cells [] [] target := by
    rw [cells_nil, List.range_eq_range', List.length_nil]
  rw [distance, hstart, foldl_nextRow_cells, getLastD_cells, List.append_nil, List.append_nil]

/-- The distance of two texts is the least number of single edits that turn one into the other. -/
theorem isLeast_editDistance (a b : String) :
    IsLeast {n | EditedIn a.toList n b.toList} (editDistance a b) := by
  have h := isLeast_cost a.toList.reverse b.toList.reverse
  simp only [editedIn_reverse] at h
  rwa [editDistance, distance_eq]

end IdlModel.Text
