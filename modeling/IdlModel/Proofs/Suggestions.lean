import IdlModel.Model.SymbolTable
import IdlModel.Proofs.EditDistance

/-!
# Suggested names

The name that is suggested for a misspelled one is the closest declared name of a type or typedef,
the first of them if several are equally close: `similarName_closest`.

*Search.*  Of some names with numbers, the search takes the first with the least number:
`firstLeast_eq_some`.

*Limit.*  Names that need too many edits are left out before the search.  Every name that is left
out needs more edits than every name that stays, so the search finds what it would find among all
names, if that is within the limit: `isFirstLeast_filter`.
-/

namespace IdlModel

/-! ## The first with the least number -/

/-- An element has the least number of a list, and is the first that has it. -/
def IsFirstLeast {α : Type} (number : α → Nat) (l : List α) (x : α) : Prop :=
  ∃ before behind, l = before ++ x :: behind ∧
    (∀ y ∈ before, number x < number y) ∧ ∀ y ∈ behind, number x ≤ number y

section

variable {α : Type} {number : α → Nat} {l : List α} {x y : α}

namespace IsFirstLeast

theorem mem (h : IsFirstLeast number l x) : x ∈ l := by
  obtain ⟨before, behind, rfl, -, -⟩ := h
  exact List.mem_append_right before List.mem_cons_self

theorem le (h : IsFirstLeast number l x) (hy : y ∈ l) : number x ≤ number y := by
  obtain ⟨before, behind, rfl, hbefore, hbehind⟩ := h
  obtain hy | hy := List.mem_append.mp hy
  · exact Nat.le_of_lt (hbefore y hy)
  · obtain rfl | hy := List.mem_cons.mp hy
    · exact Nat.le_refl _
    · exact hbehind y hy

/-- It stays the first behind one with a greater number. -/
theorem cons (h : IsFirstLeast number l x) (hy : number x < number y) :
    IsFirstLeast number (y :: l) x := by
  obtain ⟨before, behind, rfl, hbefore, hbehind⟩ := h
  exact ⟨y :: before, behind, rfl, List.forall_mem_cons.mpr ⟨hy, hbefore⟩, hbehind⟩

/-- An element is the first before those with no smaller number. -/
theorem head (h : ∀ y ∈ l, number x ≤ number y) : IsFirstLeast number (x :: l) x :=
  ⟨[], l, rfl, nofun, h⟩

end IsFirstLeast

/-- Leaving out the elements above a bound leaves the first with the least number alone, if it is
within the bound. -/
theorem isFirstLeast_filter {bound : Nat} :
    IsFirstLeast number (l.filter (number · ≤ bound)) x ↔
      IsFirstLeast number l x ∧ number x ≤ bound := by
  constructor
  · rintro ⟨kept, behind, heq, hkept, hbehind⟩
    obtain ⟨l₁, l₂, rfl, rfl, hrest⟩ := List.filter_eq_append_iff.mp heq
    obtain ⟨dropped, l₃, rfl, hdropped, hx, rfl⟩ := List.filter_eq_cons_iff.mp hrest
    have hx : number x ≤ bound := of_decide_eq_true hx
    refine ⟨⟨l₁ ++ dropped, l₃, by simp, fun y hy => ?_, fun y hy => ?_⟩, hx⟩
    · by_cases hy' : number y ≤ bound
      · obtain hy | hy := List.mem_append.mp hy
        · exact hkept y (List.mem_filter.mpr ⟨hy, decide_eq_true hy'⟩)
        · exact absurd (decide_eq_true hy') (hdropped y hy)
      · omega
    · by_cases hy' : number y ≤ bound
      · exact hbehind y (List.mem_filter.mpr ⟨hy, decide_eq_true hy'⟩)
      · omega
  · rintro ⟨⟨before, behind, rfl, hbefore, hbehind⟩, hx⟩
    refine ⟨before.filter (number · ≤ bound), behind.filter (number · ≤ bound), ?_,
      fun y hy => hbefore y (List.mem_of_mem_filter hy),
      fun y hy => hbehind y (List.mem_of_mem_filter hy)⟩
    rw [List.filter_append, List.filter_cons, if_pos (decide_eq_true hx)]

/-- Elements may be listed with their numbers. -/
theorem isFirstLeast_map {p : Nat × α} :
    IsFirstLeast Prod.fst (l.map fun x => (number x, x)) p ↔
      p.1 = number p.2 ∧ IsFirstLeast number l p.2 := by
  constructor
  · rintro ⟨before, behind, heq, hbefore, hbehind⟩
    obtain ⟨l₁, l₂, rfl, rfl, hrest⟩ := List.map_eq_append_iff.mp heq
    obtain ⟨x, l₃, rfl, rfl, rfl⟩ := List.map_eq_cons_iff.mp hrest
    exact ⟨rfl, l₁, l₃, rfl, by simpa using hbefore, by simpa using hbehind⟩
  · obtain ⟨k, x⟩ := p
    rintro ⟨rfl : k = number x, before, behind, rfl, hbefore, hbehind⟩
    exact ⟨_, _, List.map_append .., by simpa using hbefore, by simpa using hbehind⟩

end

namespace SymbolTable

theorem firstLeast_eq_none {ps : List (Nat × String)} : firstLeast ps = none ↔ ps = [] := by
  cases ps with
  | nil => simp [firstLeast]
  | cons p ps =>
      rw [firstLeast]
      split
      · simp
      · split <;> simp

theorem isFirstLeast_of_firstLeast {ps : List (Nat × String)} {p : Nat × String}
    (h : firstLeast ps = some p) : IsFirstLeast Prod.fst ps p := by
  induction ps generalizing p with
  | nil => cases h
  | cons q ps ih =>
      rw [firstLeast] at h
      split at h
      next hnone =>
        obtain rfl := firstLeast_eq_none.mp hnone
        cases h
        exact .head nofun
      next r hr =>
        split at h
        next hlt =>
          cases h
          exact (ih hr).cons hlt
        next hle =>
          cases h
          exact .head fun y hy => Nat.le_trans (Nat.le_of_not_lt hle) ((ih hr).le hy)

/-- The search finds the first pair with the least number. -/
theorem firstLeast_eq_some {ps : List (Nat × String)} {p : Nat × String} :
    firstLeast ps = some p ↔ IsFirstLeast Prod.fst ps p := by
  refine ⟨isFirstLeast_of_firstLeast, ?_⟩
  rintro ⟨before, behind, rfl, hbefore, hbehind⟩
  induction before with
  | nil =>
      rw [List.nil_append, firstLeast]
      split
      next => rfl
      next q hq =>
        have hle := hbehind q (isFirstLeast_of_firstLeast hq).mem
        rw [if_neg (Nat.not_lt.mpr hle)]
  | cons q before ih =>
      obtain ⟨hq, hbefore⟩ := List.forall_mem_cons.mp hbefore
      rw [List.cons_append, firstLeast, ih hbefore]
      exact if_pos hq

/-! ## Suggestions -/

/-- The names of the declared types and typedefs, in the order of their declarations. -/
def typeNames (t : SymbolTable) : List String :=
  (t.names.entries.filter fun (_, symbol) => symbol.isNamedType).map (·.1)

/-- The search goes through the names within the limit. -/
theorem similarName?_eq (t : SymbolTable) (key : String) :
    t.similarName? key =
      (firstLeast ((t.typeNames.filter (Text.editDistance key · ≤ editLimit key)).map
        fun name => (Text.editDistance key name, name))).map (·.2) := by
  rw [similarName?, typeNames]
  simp only [List.filter_map, List.map_map]
  rfl

theorem le_editLimit {key : String} (hkey : key ≠ "") {n : Nat} :
    n ≤ editLimit key ↔ n ≤ 2 ∧ n < key.length := by
  have hlength : 0 < key.length :=
    Nat.pos_of_ne_zero fun h => hkey (String.length_eq_zero_iff.mp h)
  rw [editLimit]
  omega

theorem similarName?_eq_some {t : SymbolTable} {key name : String} :
    t.similarName? key = some name ↔
      IsFirstLeast (Text.editDistance key) t.typeNames name ∧
        Text.editDistance key name ≤ editLimit key := by
  rw [similarName?_eq, Option.map_eq_some_iff]
  simp only [firstLeast_eq_some, isFirstLeast_map, isFirstLeast_filter]
  constructor
  · rintro ⟨_, ⟨-, h⟩, rfl⟩
    exact h
  · exact fun h => ⟨(Text.editDistance key name, name), ⟨rfl, h⟩, rfl⟩

theorem similarName?_eq_none {t : SymbolTable} {key : String} :
    t.similarName? key = none ↔
      ∀ name ∈ t.typeNames, ¬ Text.editDistance key name ≤ editLimit key := by
  simp [similarName?_eq, firstLeast_eq_none, List.filter_eq_nil_iff]

/-- The distance of two texts is the least number of edits between them.  A suggestion is the first
declared type or typedef whose name is closest, if two edits suffice and fewer than the misspelled
name has characters.  Without such a name there is no suggestion. -/
theorem similarName_closest :
    (∀ a b : String, IsLeast {n | Text.EditedIn a.toList n b.toList} (Text.editDistance a b)) ∧
    ∀ (t : SymbolTable) (key : String), key ≠ "" →
      (∀ name, t.similarName? key = some name ↔
        IsFirstLeast (Text.editDistance key) t.typeNames name ∧
          Text.editDistance key name ≤ 2 ∧ Text.editDistance key name < key.length) ∧
      (t.similarName? key = none ↔ ∀ name ∈ t.typeNames,
        ¬ (Text.editDistance key name ≤ 2 ∧ Text.editDistance key name < key.length)) := by
  refine ⟨Text.isLeast_editDistance, fun t key hkey => ⟨fun name => ?_, ?_⟩⟩
  · rw [similarName?_eq_some, le_editLimit hkey]
  · simp only [similarName?_eq_none, le_editLimit hkey]

/-- The mixin `Xodes`, the enumeration `Node` and the typedef `Mode`. -/
def modesAndNodes : SymbolTable where
  slots := #[{ entity := .enumeration { identity := .ofIdl "Node" "dom" ⟨"dom.idl", 2⟩ } }]
  names := ⟨[("Xodes", .mixin 0), ("Node", .type ⟨0⟩), ("Mode", .typedef 0)]⟩
  mixins := #[{ identity := .ofIdl "Xodes" "dom" ⟨"dom.idl", 1⟩ }]
  typedefs := #[{ idl := "Mode", type := .unlinked "Node", source := ⟨"dom.idl", 3⟩ }]

/-- A mixin is never suggested, and of two names that are equally close the first one is. -/
theorem similarName_closest_modesAndNodes :
    IsLeast {n | Text.EditedIn "Elemnet".toList n "Element".toList} 2 ∧
      "Xode" ≠ "" ∧ modesAndNodes.similarName? "Xode" = some "Node" ∧
      "N" ≠ "" ∧ modesAndNodes.similarName? "N" = none := by
  obtain ⟨hdistance, hclosest⟩ := similarName_closest
  have hleast := hdistance "Elemnet" "Element"
  have htwo : Text.editDistance "Elemnet" "Element" = 2 := by decide
  have hnode : IsFirstLeast (Text.editDistance "Xode") modesAndNodes.typeNames "Node" :=
    ⟨[], ["Mode"], rfl, nofun, by decide⟩
  refine ⟨htwo ▸ hleast, by decide, ?_, by decide, ?_⟩
  · exact ((hclosest modesAndNodes "Xode" (by decide)).1 "Node").mpr ⟨hnode, by decide, by decide⟩
  · exact (hclosest modesAndNodes "N" (by decide)).2.mpr (by decide)

end SymbolTable

end IdlModel
