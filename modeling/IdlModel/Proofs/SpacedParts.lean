import IdlModel.Proofs.ScriptLines
import Mathlib.Data.List.TakeWhile

/-!
# Parts of lines with gaps between them

A name and a word end at a gap.  So in a line whose parts are set apart by spaces and tabs, each
part is taken whole, and what stands behind it is left.
-/

namespace IdlModel.Script

variable {gaps rest : List Char}

/-! ## Gaps -/

/-- Spaces and tabs. -/
def IsGaps (cs : List Char) : Prop := ∀ c ∈ cs, isGap c = true

/-- A text that ends what stands before it: it is empty or starts with a gap. -/
def StartsWithGap (cs : List Char) : Prop := ∀ c ∈ cs.head?, isGap c = true

theorem IsGaps.startsWithGap (h : IsGaps gaps) : StartsWithGap gaps := fun c hc =>
  h c (List.mem_of_head? hc)

theorem IsGaps.startsWithGap_append (h : IsGaps gaps) (hne : gaps ≠ []) :
    StartsWithGap (gaps ++ rest) := by
  intro c hc
  rw [List.head?_append_of_ne_nil _ hne] at hc
  exact h c (List.mem_of_head? hc)

theorem dropGaps_append (h : IsGaps gaps) : dropGaps (gaps ++ rest) = dropGaps rest := by
  rw [dropGaps, List.dropWhile_append_of_pos h, dropGaps]

theorem dropGaps_append_cons {c : Char} (h : IsGaps gaps) (hc : isGap c = false) :
    dropGaps (gaps ++ c :: rest) = c :: rest := by
  rw [dropGaps_append h, dropGaps, List.dropWhile_cons_of_neg (by simp [hc])]

theorem dropGaps_of_isGaps (h : IsGaps gaps) : dropGaps gaps = [] := by
  rw [← List.append_nil gaps, dropGaps_append h]
  rfl

/-! ## Names and words -/

instance (name : String) : Decidable (IsName name) :=
  decidable_of_iff (name.toList.head?.any isNameStart && name.toList.tail.all isNamePart) <| by
    unfold IsName
    cases name.toList with
    | nil => simp
    | cons c cs => simp [List.all_eq_true]

/-- What is of a class is taken, and no more. -/
theorem span_of_forall {q : Char → Bool} {cs : List Char} (hcs : ∀ c ∈ cs, q c = true)
    (hrest : ∀ c ∈ rest.head?, q c = false) :
    (cs ++ rest).takeWhile q = cs ∧ (cs ++ rest).dropWhile q = rest := by
  obtain ⟨htake, hdrop⟩ := span_append hrest cs
  rw [htake, hdrop, List.takeWhile_eq_self_iff.mpr hcs, List.dropWhile_eq_nil_iff.mpr hcs]
  exact ⟨rfl, rfl⟩

/-- A class without gaps ends at a gap. -/
theorem StartsWithGap.stops {q : Char → Bool} (hspace : q ' ' = false) (htab : q '\t' = false)
    (h : StartsWithGap rest) : ∀ c ∈ rest.head?, q c = false := by
  intro c hc
  have hgap : c = ' ' ∨ c = '\t' := by simpa [isGap] using h c hc
  obtain rfl | rfl := hgap
  · exact hspace
  · exact htab

/-- A class without gaps and line endings is within the words. -/
theorem isWordPart_of_class {q : Char → Bool} (hspace : q ' ' = false) (htab : q '\t' = false)
    (hfeed : q '\n' = false) (hreturn : q '\r' = false) {c : Char} (hc : q c = true) :
    isWordPart c = true := by
  have hne : ∀ d, q d = false → c ≠ d := by
    rintro _ hd rfl
    rw [hc] at hd
    cases hd
  simp [isWordPart, isGap, hne _ hspace, hne _ htab, hne _ hfeed, hne _ hreturn]

theorem isWordPart_of_isName {name : String} (h : IsName name) :
    ∀ c ∈ name.toList, isWordPart c = true := by
  obtain ⟨c, cs, hcs, hc, hparts⟩ := h
  rw [hcs]
  refine List.forall_mem_cons.mpr ⟨?_, fun d hd => ?_⟩
  · exact isWordPart_of_class (by decide) (by decide) (by decide) (by decide) hc
  · exact isWordPart_of_class (by decide) (by decide) (by decide) (by decide) (hparts d hd)

/-- A name is taken whole. -/
theorem takeName?_append {name : String} (hname : IsName name)
    (hrest : ∀ c ∈ rest.head?, isNamePart c = false) :
    takeName? (name.toList ++ rest) = some (name, rest) := by
  obtain ⟨c, cs, hcs, hc, hparts⟩ := hname
  obtain ⟨htake, hdrop⟩ := span_of_forall hparts hrest
  rw [hcs, List.cons_append, takeName?, if_pos hc, htake, hdrop, ← hcs, String.ofList_toList]

/-- Gaps before an argument are dropped. -/
theorem arguments_append (h : IsGaps gaps) :
    LexedLine.arguments (gaps ++ rest) = LexedLine.arguments rest := by
  induction gaps with
  | nil => rfl
  | cons c gaps ih =>
      obtain ⟨hc, hgaps⟩ := List.forall_mem_cons.mp h
      rw [List.cons_append, LexedLine.arguments, if_pos hc, ih hgaps]

theorem arguments_of_isGaps (h : IsGaps gaps) : LexedLine.arguments gaps = {} := by
  rw [← List.append_nil gaps, arguments_append h, LexedLine.arguments]

/-- A word is taken whole. -/
theorem arguments_word {word : String} (hword : IsArgument (.word word))
    (hquote : word.toList.head? ≠ some '"') (hrest : StartsWithGap rest) :
    LexedLine.arguments (word.toList ++ rest) = (LexedLine.arguments rest).cons (.word word) := by
  obtain ⟨hne, hassign, hparts⟩ := hword
  cases hcs : word.toList with
  | nil => exact absurd (String.toList_eq_nil_iff.mp hcs) hne
  | cons c cs =>
      rw [hcs] at hquote hparts
      obtain ⟨hc, hparts⟩ := List.forall_mem_cons.mp hparts
      have hword : c :: cs ≠ ['='] := fun h => hassign (String.toList_inj.mp (hcs.trans h))
      obtain ⟨htake, hdrop⟩ := span_of_forall hparts (hrest.stops rfl rfl)
      simp only [isWordPart, Bool.and_eq_true, bne_iff_ne, Bool.not_eq_true'] at hc
      obtain ⟨⟨hgap, -⟩, hreturn⟩ := hc
      rw [List.cons_append, LexedLine.arguments, if_neg (by simp [hgap]),
        if_neg fun h => hquote (by rw [h]; rfl), if_neg hreturn, htake, hdrop, if_neg hword, ← hcs,
        String.ofList_toList]

/-- A lone `=` among the arguments. -/
theorem arguments_assign (hrest : StartsWithGap rest) :
    LexedLine.arguments ('=' :: rest) = (LexedLine.assigned rest).cons .assign := by
  have hstops := hrest.stops (q := isWordPart) rfl rfl
  obtain ⟨htake, hdrop⟩ := span_of_forall (List.forall_mem_nil _) hstops
  rw [List.nil_append] at htake hdrop
  rw [LexedLine.arguments, if_neg (by decide), if_neg (by decide), if_neg (by decide), htake, hdrop,
    if_pos rfl]

/-! ## Statements -/

/-- A property or a member: its name is taken whole, and `=` with the gaps before it. -/
theorem assignment_append {name : String} (hname : IsName name) (hgaps : IsGaps gaps)
    (token : String → Token) (wanted : Wanted) :
    LexedLine.assignment token wanted (name.toList ++ (gaps ++ '=' :: rest)) =
      (LexedLine.assigned rest).cons (token name) := by
  have hstops : ∀ c ∈ (gaps ++ '=' :: rest).head?, isNamePart c = false := by
    cases gaps with
    | nil =>
        rintro _ ⟨⟩
        decide
    | cons c gaps =>
        exact (hgaps.startsWithGap_append (List.cons_ne_nil c gaps)).stops (by decide) (by decide)
  simp only [LexedLine.assignment, LexedLine.named, takeName?_append hname hstops,
    dropGaps_append_cons hgaps (show isGap '=' = false from rfl)]

theorem ofChars_property {name : String} (hname : IsName name) (hgaps : IsGaps gaps) :
    LexedLine.ofChars ('.' :: (name.toList ++ (gaps ++ '=' :: rest))) =
      (LexedLine.assigned rest).cons (.property name) :=
  assignment_append hname hgaps .property .propertyName

theorem ofChars_rename {member : String} (hmember : IsName member) (hgaps : IsGaps gaps) :
    LexedLine.ofChars (member.toList ++ (gaps ++ '=' :: rest)) =
      (LexedLine.assigned rest).cons (.rename member) := by
  rw [← assignment_append hmember hgaps .rename .memberName]
  obtain ⟨c, cs, hcs, hc, -⟩ := hmember
  have hne : ∀ d, isNameStart d = false → c ≠ d := by
    rintro _ hd rfl
    rw [hc] at hd
    cases hd
  have hgap : isGap c = false := by
    simp [isGap, hne ' ' (by decide), hne '\t' (by decide)]
  rw [hcs, List.cons_append, LexedLine.ofChars]
  · simp [hne '\r' (by decide), hgap, hc]
  · exact fun _ h _ => hne '#' (by decide) h
  · exact hne '#' (by decide)
  · exact hne '.' (by decide)
  · exact hne '@' (by decide)

/-- A command: its name is taken whole. -/
theorem ofChars_command {name : String} (hname : IsName name) (hrest : StartsWithGap rest) :
    LexedLine.ofChars ('@' :: (name.toList ++ rest)) =
      (LexedLine.arguments rest).cons (.command name) := by
  rw [LexedLine.ofChars, LexedLine.commandLine, LexedLine.named,
    takeName?_append hname (hrest.stops (by decide) (by decide))]

end IdlModel.Script
