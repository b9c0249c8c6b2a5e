import IdlModel.Script.Statement
import Mathlib.Data.List.Basic

/-!
# The lines of scripts

Which lines of tokens there are, and where they stand.

*Forms.*  The tokens of a line have the form of a header, of a property or a member with a value,
or of a command with arguments, perhaps with `=` and a value behind them: `IsLine`.  Every part
of a line is cut from it without a look at the other lines, so a text of a token has no line feed.

*Places.*  A text is its lines with their endings between them.  The number of a line is that of
the line feeds before it, counted from one: `StandsIn`.

*Malformed lines.*  A line with one of the forms is refused for what its command wants, if at all.
The statement behind a pattern is the rest of such a line, so its value stands behind its `=` as
well: `fitsForm_readEffect`.
-/

namespace IdlModel.Script

/-! ## Forms -/

/-- A name. -/
def IsName (name : String) : Prop :=
  ∃ c cs, name.toList = c :: cs ∧ isNameStart c = true ∧ ∀ d ∈ cs, isNamePart d = true

/-- A value: bare text or a string. -/
inductive IsValue : Token → Prop
  | value (text : String) : IsValue (.value text)
  | str (text : String) : IsValue (.str text)

/-- An argument of a command: a word or a string. -/
inductive IsArgument : Token → Prop
  | word {text : String} (hne : text ≠ "") (hassign : text ≠ "=")
      (hparts : ∀ c ∈ text.toList, isWordPart c = true) : IsArgument (.word text)
  | str (text : String) : IsArgument (.str text)

/-- What stands behind the name of a command: arguments, and perhaps `=` and a value behind
them. -/
inductive IsTail : List Token → Prop
  | ending : IsTail []
  | assigned {value : Token} (h : IsValue value) : IsTail [.assign, value]
  | argument {arg : Token} {rest : List Token} (harg : IsArgument arg) (hrest : IsTail rest) :
      IsTail (arg :: rest)

/-- The tokens of a line. -/
inductive IsLine : List Token → Prop
  | fileHeader {package : String} (h : package ≠ "") : IsLine [.fileHeader package]
  | typeHeader {name : String} (h : name ≠ "") : IsLine [.typeHeader name]
  | property {name : String} {value : Token} (hname : IsName name) (hvalue : IsValue value) :
      IsLine [.property name, value]
  | rename {member : String} {value : Token} (hmember : IsName member) (hvalue : IsValue value) :
      IsLine [.rename member, value]
  | command {name : String} {tail : List Token} (hname : IsName name) (htail : IsTail tail) :
      IsLine (.command name :: tail)

/-- A line that is not skipped. -/
def IsStatement (line : List Char) : Prop := ∃ c cs, line = c :: cs ∧ isGap c = false

/-! ## Parts of a line -/

theorem dropGaps_subset (cs : List Char) : dropGaps cs ⊆ cs :=
  (List.dropWhile_suffix isGap).subset

theorem trimEnd_subset (cs : List Char) : Text.trimEnd cs ⊆ cs := fun _ h =>
  List.mem_reverse.mp ((List.dropWhile_suffix Text.isBlank).subset (List.mem_reverse.mp h))

theorem takeTail_subset (cs : List Char) : (takeTail cs).1 ⊆ cs ∧ (takeTail cs).2 ⊆ cs := by
  rw [takeTail]
  split
  · exact ⟨List.nil_subset cs, List.Subset.refl cs⟩
  · exact ⟨List.Subset.refl cs, List.nil_subset cs⟩

/-- A class of characters is taken up to a text that does not go on with it. -/
theorem span_append {q : Char → Bool} {rest : List Char} (hrest : ∀ c ∈ rest.head?, q c = false)
    (cs : List Char) :
    (cs ++ rest).takeWhile q = cs.takeWhile q ∧
      (cs ++ rest).dropWhile q = cs.dropWhile q ++ rest := by
  induction cs with
  | nil =>
      cases rest with
      | nil => exact ⟨rfl, rfl⟩
      | cons c rest => simp [hrest c rfl]
  | cons c cs ih => by_cases hc : q c = true <;> simp [hc, ih.1, ih.2]

theorem takeName?_eq_some {cs rest : List Char} {name : String}
    (h : takeName? cs = some (name, rest)) : IsName name ∧ cs = name.toList ++ rest := by
  cases cs with
  | nil => cases h
  | cons c cs =>
      rw [takeName?] at h
      split at h
      next hc =>
        cases h
        simp only [IsName, String.toList_ofList]
        refine ⟨⟨c, _, rfl, hc, List.all_eq_true.mp List.all_takeWhile⟩, ?_⟩
        rw [List.cons_append, List.takeWhile_append_dropWhile]
      next => cases h

theorem takeString?_subset {cs s after : List Char} (h : takeString? cs = some (s, after)) :
    s ⊆ cs ∧ after ⊆ cs := by
  fun_induction takeString? cs generalizing s after with
  | case1 | case3 => cases h
  | case2 rest =>
      cases h
      exact ⟨List.nil_subset _, List.subset_cons_self _ _⟩
  | case4 c rest kept =>
      rename_i ih
      obtain ⟨⟨s', after'⟩, h', he⟩ := Option.map_eq_some_iff.1 h
      cases he
      obtain ⟨hs, hafter⟩ := ih h'
      have hrest : rest ⊆ '\\' :: c :: rest := fun _ hd => by simp [hd]
      have hkept : kept ⊆ '\\' :: c :: rest := by
        unfold kept
        split <;> simp
      refine ⟨List.append_subset.mpr ⟨hkept, ?_⟩, List.Subset.trans hafter hrest⟩
      exact List.Subset.trans hs hrest
  | case5 c rest _ _ _ ih =>
      obtain ⟨⟨s', after'⟩, h', he⟩ := Option.map_eq_some_iff.1 h
      cases he
      obtain ⟨hs, hafter⟩ := ih h'
      exact ⟨List.cons_subset_cons c hs, List.subset_cons_of_subset c hafter⟩

/-! ## Cutting a line -/

/-- What a line, or the rest of one, is cut into: the texts of the tokens have only characters of
the line, and without a problem the tokens have a form. -/
structure Cut (cs : List Char) (form : List Token → Prop) (line : LexedLine) : Prop where
  texts : ∀ t ∈ line.tokens, ∀ s ∈ t.text?, s.toList ⊆ cs
  form : line.problem = none → form line.tokens

namespace Cut

variable {cs cs' : List Char} {form form' : List Token → Prop} {line : LexedLine}

theorem failed {problem : LexProblem} : Cut cs form (.failed problem) := ⟨nofun, nofun⟩

theorem nil (h : form []) : Cut cs form {} := ⟨nofun, fun _ => h⟩

theorem cons {token : Token} (h : Cut cs form line) (hsub : cs ⊆ cs')
    (htoken : ∀ s ∈ token.text?, s.toList ⊆ cs')
    (hform : ∀ later, form later → form' (token :: later)) : Cut cs' form' (line.cons token) where
  texts := List.forall_mem_cons.mpr
    ⟨htoken, fun t ht s hs => List.Subset.trans (h.texts t ht s hs) hsub⟩
  form hproblem := hform _ (h.form hproblem)

theorem mono (h : Cut cs form line) (hsub : cs ⊆ cs') (hform : ∀ ts, form ts → form' ts) :
    Cut cs' form' line where
  texts t ht s hs := List.Subset.trans (h.texts t ht s hs) hsub
  form hproblem := hform _ (h.form hproblem)

end Cut

theorem cut_ending (cs : List Char) : Cut cs (· = []) (.ending cs) := by
  rw [LexedLine.ending]
  split
  · exact .nil rfl
  · exact .failed

theorem cut_assigned (cs : List Char) :
    Cut cs (fun ts => ∃ value, ts = [value] ∧ IsValue value) (.assigned cs) := by
  have hgaps := dropGaps_subset cs
  rw [LexedLine.assigned]
  split
  next => exact .failed
  next rest heq =>
    rw [heq] at hgaps
    split
    next s after hs =>
      obtain ⟨hin, hafter⟩ := takeString?_subset hs
      have hrest : rest ⊆ cs := fun _ h => hgaps (List.mem_cons_of_mem _ h)
      refine (cut_ending after).cons (List.Subset.trans hafter hrest) ?_ ?_
      · rintro _ ⟨⟩
        rw [String.toList_ofList]
        exact List.Subset.trans hin hrest
      · rintro _ rfl
        exact ⟨_, rfl, .str _⟩
    next => exact .failed
  next rest _ heq =>
    obtain ⟨htail, hafter⟩ := takeTail_subset (dropGaps cs)
    show Cut cs _ (LexedLine.cons _ (.ending (takeTail (dropGaps cs)).2))
    refine (cut_ending _).cons (List.Subset.trans hafter hgaps) ?_ ?_
    · rintro _ ⟨⟩
      rw [String.toList_ofList]
      exact List.Subset.trans (List.Subset.trans (trimEnd_subset _) htail) hgaps
    · rintro _ rfl
      exact ⟨_, rfl, .value _⟩

/-- A word is no lone `=`. -/
theorem isArgument_word {c : Char} {cs : List Char} (hc : isWordPart c = true)
    (hassign : c :: cs.takeWhile isWordPart ≠ ['=']) :
    IsArgument (.word (String.ofList (c :: cs.takeWhile isWordPart))) := by
  refine .word ?_ ?_ ?_
  · exact fun h => by simpa using congrArg String.toList h
  · exact fun h => hassign (by simpa using congrArg String.toList h)
  · rw [String.toList_ofList]
    exact List.forall_mem_cons.mpr ⟨hc, List.all_eq_true.mp List.all_takeWhile⟩

theorem cut_arguments {cs : List Char} (hfeed : '\n' ∉ cs) : Cut cs IsTail (.arguments cs) := by
  fun_induction LexedLine.arguments cs with
  | case1 => exact .nil .ending
  | case2 c cs _ ih =>
      have hsub := List.subset_cons_self c cs
      exact (ih fun h => hfeed (hsub h)).mono hsub fun _ h => h
  | case3 cs s after hs _ ih =>
      obtain ⟨hin, hafter⟩ := takeString?_subset hs
      have hsub : after ⊆ '"' :: cs := List.subset_cons_of_subset _ hafter
      refine (ih fun h => hfeed (hsub h)).cons hsub ?_ fun _ h => .argument (.str _) h
      rintro _ ⟨⟩
      rw [String.toList_ofList]
      exact List.subset_cons_of_subset _ hin
  | case4 | case5 => exact .failed
  | case6 c cs _ _ _ word after _ =>
      have hsub : after ⊆ c :: cs :=
        List.subset_cons_of_subset c (List.dropWhile_suffix isWordPart).subset
      refine (cut_assigned after).cons hsub nofun ?_
      rintro _ ⟨value, rfl, hvalue⟩
      exact .assigned hvalue
  | case7 c cs hgap _ hreturn word after hassign ih =>
      have hsub : after ⊆ c :: cs :=
        List.subset_cons_of_subset c (List.dropWhile_suffix isWordPart).subset
      have hc : c ≠ '\n' := fun h => hfeed (h ▸ List.mem_cons_self)
      have hword : IsArgument (.word (String.ofList word)) :=
        isArgument_word (by simp [isWordPart, hgap, hc, hreturn]) hassign
      refine (ih fun h => hfeed (hsub h)).cons hsub ?_ fun _ h => .argument hword h
      rintro _ ⟨⟩
      rw [String.toList_ofList]
      exact List.cons_subset_cons c (List.takeWhile_prefix isWordPart).subset

theorem cut_named {wanted : Wanted} {cs : List Char} {next : String → List Char → LexedLine}
    {form : List Token → Prop}
    (hnext : ∀ name rest, IsName name → name.toList ⊆ cs → rest ⊆ cs →
      Cut cs form (next name rest)) : Cut cs form (.named wanted cs next) := by
  rw [LexedLine.named]
  split
  next name rest h =>
    obtain ⟨hname, rfl⟩ := takeName?_eq_some h
    exact hnext name rest hname (List.subset_append_left _ _) (List.subset_append_right _ _)
  next => exact .failed

theorem cut_assignment {token : String → Token} (htoken : ∀ name, (token name).text? = some name)
    (wanted : Wanted) (cs : List Char) :
    Cut cs (fun ts => ∃ name value, ts = [token name, value] ∧ IsName name ∧ IsValue value)
      (.assignment token wanted cs) := by
  refine cut_named fun name rest hname hin hrest => ?_
  have hgaps := dropGaps_subset rest
  split
  next => exact .failed
  next rest' heq =>
    rw [heq] at hgaps
    refine (cut_assigned rest').cons ?_ ?_ ?_
    · exact fun _ h => hrest (hgaps (List.mem_cons_of_mem _ h))
    · rw [htoken]
      rintro _ ⟨⟩
      exact hin
    · rintro _ ⟨value, rfl, hvalue⟩
      exact ⟨name, value, rfl, hname, hvalue⟩
  next => exact .failed

theorem cut_commandLine {cs : List Char} (hfeed : '\n' ∉ cs) :
    Cut cs (fun ts => ∃ name later, ts = .command name :: later ∧ IsName name ∧ IsTail later)
      (.commandLine cs) := by
  refine cut_named fun name rest hname hin hrest => ?_
  refine (cut_arguments fun h => hfeed (hrest h)).cons hrest ?_ ?_
  · rintro _ ⟨⟩
    exact hin
  · exact fun later h => ⟨name, later, rfl, hname, h⟩

theorem cut_header {marker : String} {token : String → Token}
    (htoken : ∀ name, (token name).text? = some name) (cs : List Char) :
    Cut cs (fun ts => ∃ name, ts = [token name] ∧ name ≠ "") (.header marker token cs) := by
  have htail := List.Subset.trans (takeTail_subset (dropGaps cs)).1 (dropGaps_subset cs)
  have hin : Text.trimEnd (takeTail (dropGaps cs)).1 ⊆ cs :=
    List.Subset.trans (trimEnd_subset _) htail
  rw [LexedLine.header]
  split
  next => exact .failed
  next hne =>
    refine ⟨?_, fun _ => ⟨_, rfl, fun h => hne ?_⟩⟩
    · intro t ht s hs
      rw [List.mem_singleton.mp ht, htoken] at hs
      cases hs
      rw [String.toList_ofList]
      exact hin
    · simpa using congrArg String.toList h

/-- A line is skipped, or its tokens have one of the forms. -/
theorem cut_ofChars {cs : List Char} (hfeed : '\n' ∉ cs) :
    Cut cs (fun ts => IsStatement cs ∧ IsLine ts ∨ ¬ IsStatement cs ∧ ts = []) (.ofChars cs) := by
  have hstart : ∀ {c rest}, isGap c = false → IsStatement (c :: rest) :=
    fun {c rest} hc => ⟨c, rest, rfl, hc⟩
  unfold LexedLine.ofChars
  split
  next => exact .nil (.inr ⟨nofun, rfl⟩)
  next rest =>
    refine (cut_header (fun _ => rfl) rest).mono (by simp) ?_
    rintro _ ⟨name, rfl, hname⟩
    exact .inl ⟨hstart rfl, .typeHeader hname⟩
  next rest _ =>
    refine (cut_header (fun _ => rfl) rest).mono (by simp) ?_
    rintro _ ⟨name, rfl, hname⟩
    exact .inl ⟨hstart rfl, .fileHeader hname⟩
  next rest =>
    refine (cut_assignment (fun _ => rfl) _ rest).mono (by simp) ?_
    rintro _ ⟨name, value, rfl, hname, hvalue⟩
    exact .inl ⟨hstart rfl, .property hname hvalue⟩
  next rest =>
    refine (cut_commandLine fun h => hfeed (by simp [h])).mono (by simp) ?_
    rintro _ ⟨name, later, rfl, hname, hlater⟩
    exact .inl ⟨hstart rfl, .command hname hlater⟩
  next c rest _ _ _ _ =>
    split
    · exact .failed
    split
    next hgap =>
      refine .nil (.inr ⟨?_, rfl⟩)
      rintro ⟨c, cs, ⟨⟩, hc⟩
      rw [hgap] at hc
      cases hc
    next hgap =>
      split
      next =>
        refine (cut_assignment (fun _ => rfl) _ (c :: rest)).mono (List.Subset.refl _) ?_
        rintro _ ⟨name, value, rfl, hname, hvalue⟩
        exact .inl ⟨hstart (by simpa using hgap), .rename hname hvalue⟩
      next => exact .failed

/-! ## Lines of a text -/

/-- What stands behind a line: nothing, or its ending. -/
inductive EndsLine (line : List Char) : List Char → Prop
  | last : EndsLine line []
  | feed {rest : List Char} (h : line.getLast? ≠ some '\r') : EndsLine line ('\n' :: rest)
  | returnFeed {rest : List Char} : EndsLine line ('\r' :: '\n' :: rest)

/-- A line without its ending stands in a text, as the line with this number. -/
structure StandsIn (text : List Char) (number : Nat) (line : List Char) : Prop where
  /-- The line has no line feed. -/
  noFeed : '\n' ∉ line
  /-- It stands at the start of the text or behind a line feed, up to a line ending or the end of
  the text.  Its number is that of the line feeds before it, counted from one. -/
  split : ∃ before after, text = before ++ line ++ after ∧ number = before.count '\n' + 1 ∧
    (∀ c ∈ before.getLast?, c = '\n') ∧ EndsLine line after

/-- A text is a last line, or a line with its line feed and the rest. -/
theorem text_induction {P : List Char → Prop} (last : ∀ p, '\n' ∉ p → P p)
    (line : ∀ p rest, '\n' ∉ p → P rest → P (p ++ '\n' :: rest)) (cs : List Char) : P cs := by
  suffices h : ∀ p, '\n' ∉ p → P (p ++ cs) from h [] List.not_mem_nil
  induction cs with
  | nil => exact fun p hp => by simpa using last p hp
  | cons c cs ih =>
      intro p hp
      by_cases hc : c = '\n'
      · subst hc
        exact line p cs hp (ih [] List.not_mem_nil)
      · rw [List.append_cons]
        exact ih (p ++ [c]) (by simp [hp, Ne.symm hc])

theorem splitAt_ne_nil (sep : Char) (cs : List Char) : Text.splitAt sep cs ≠ [] := by
  cases cs with
  | nil => exact List.cons_ne_nil _ _
  | cons c cs =>
      rw [Text.splitAt]
      split
      · exact List.cons_ne_nil _ _
      · split <;> exact List.cons_ne_nil _ _

theorem splitAt_of_notMem {sep : Char} {p : List Char} (hp : sep ∉ p) :
    Text.splitAt sep p = [p] := by
  induction p with
  | nil => rfl
  | cons c p ih =>
      rw [List.mem_cons, not_or] at hp
      simp [Text.splitAt, ih hp.2, Ne.symm hp.1]

theorem splitAt_append {sep : Char} {p rest : List Char} (hp : sep ∉ p) :
    Text.splitAt sep (p ++ sep :: rest) = p :: Text.splitAt sep rest := by
  induction p with
  | nil =>
      rw [List.nil_append, Text.splitAt]
      split
      next h => exact absurd h (splitAt_ne_nil sep rest)
      next h => rw [if_pos rfl, h]
  | cons c p ih =>
      rw [List.mem_cons, not_or] at hp
      simp [Text.splitAt, ih hp.2, Ne.symm hp.1]

/-- What stands before the first separator is determined. -/
theorem splitAt_inj {sep : Char} {p q rest rest' : List Char} (hp : sep ∉ p) (hq : sep ∉ q)
    (h : p ++ sep :: rest = q ++ sep :: rest') : p = q ∧ rest = rest' := by
  have hsplit := congrArg (Text.splitAt sep) h
  rw [splitAt_append hp, splitAt_append hq] at hsplit
  obtain rfl := (List.cons.inj hsplit).1
  exact ⟨rfl, (List.cons.inj (List.append_cancel_left h)).2⟩

theorem linesOf_last {p : List Char} (hp : '\n' ∉ p) : linesOf p = [p] := by
  simp [linesOf, splitAt_of_notMem hp]

theorem linesOf_line {p rest : List Char} (hp : '\n' ∉ p) :
    linesOf (p ++ '\n' :: rest) = dropReturn p :: linesOf rest := by
  obtain ⟨piece, pieces, h⟩ := List.exists_cons_of_ne_nil (splitAt_ne_nil '\n' rest)
  simp [linesOf, splitAt_append hp, h]

theorem length_linesOf (cs : List Char) : (linesOf cs).length = cs.count '\n' + 1 := by
  induction cs using text_induction with
  | last p hp => simp [linesOf_last hp, List.count_eq_zero_of_not_mem hp]
  | line p rest hp ih => simp [linesOf_line hp, List.count_eq_zero_of_not_mem hp, ih]

namespace StandsIn

variable {p rest line : List Char} {n : Nat}

/-- A text without line feeds is its only line. -/
theorem last_iff (hp : '\n' ∉ p) : StandsIn p n line ↔ n = 1 ∧ line = p := by
  constructor
  · rintro ⟨-, before, after, rfl, rfl, hbefore, hafter⟩
    rw [List.mem_append, List.mem_append, not_or, not_or] at hp
    obtain ⟨⟨hb, -⟩, ha⟩ := hp
    obtain rfl : before = [] := by
      rw [← List.getLast?_eq_none_iff]
      exact Option.eq_none_iff_forall_not_mem.mpr fun c hc =>
        hb (hbefore c hc ▸ List.mem_of_getLast? hc)
    cases hafter with
    | last => simp
    | feed => simp at ha
    | returnFeed => simp at ha
  · rintro ⟨rfl, rfl⟩
    exact ⟨hp, [], [], by simp, rfl, nofun, .last⟩

/-- The first line is what stands before the first line feed. -/
theorem first_iff (hp : '\n' ∉ p) : StandsIn (p ++ '\n' :: rest) 1 line ↔ line = dropReturn p := by
  constructor
  · rintro ⟨hline, before, after, heq, hnumber, hbefore, hafter⟩
    obtain rfl : before = [] := by
      rw [← List.getLast?_eq_none_iff]
      refine Option.eq_none_iff_forall_not_mem.mpr fun c hc => ?_
      have hmem := List.mem_of_getLast? hc
      rw [hbefore c hc] at hmem
      have := List.count_pos_iff.mpr hmem
      omega
    rw [List.nil_append] at heq
    cases hafter with
    | last =>
        rw [List.append_nil] at heq
        exact absurd (heq ▸ List.mem_append_right p List.mem_cons_self) hline
    | feed h =>
        obtain ⟨rfl, -⟩ := splitAt_inj hp hline heq
        rw [dropReturn, if_neg h]
    | returnFeed =>
        rw [List.append_cons line] at heq
        obtain ⟨rfl, -⟩ := splitAt_inj hp (by simp [hline]) heq
        simp [dropReturn]
  · rintro rfl
    rw [dropReturn]
    split
    next h =>
      have hp' := List.dropLast_append_getLast? _ h
      refine ⟨fun h => hp (List.dropLast_subset p h), [], '\r' :: '\n' :: rest, ?_, rfl, nofun,
        .returnFeed⟩
      rw [List.nil_append, List.append_cons p.dropLast, hp']
    next h => exact ⟨hp, [], '\n' :: rest, by simp, rfl, nofun, .feed h⟩

/-- The other lines are those of the text behind the first line feed. -/
theorem later_iff (hp : '\n' ∉ p) :
    StandsIn (p ++ '\n' :: rest) (n + 2) line ↔ StandsIn rest (n + 1) line := by
  constructor
  · rintro ⟨hline, before, after, heq, hnumber, hbefore, hafter⟩
    obtain ⟨q, r, rfl, hq⟩ : ∃ q r, before = q ++ '\n' :: r ∧ '\n' ∉ q := by
      refine List.eq_append_cons_of_mem (List.count_pos_iff.mp ?_)
      omega
    rw [List.append_assoc, List.append_assoc, List.cons_append] at heq
    obtain ⟨rfl, rfl⟩ := splitAt_inj hp hq heq
    refine ⟨hline, r, after, (List.append_assoc _ _ _).symm, ?_, fun c hc => ?_, hafter⟩
    · simp only [List.count_append, List.count_eq_zero_of_not_mem hp,
        List.count_cons_self] at hnumber
      omega
    · refine hbefore c ?_
      show c ∈ (p ++ (['\n'] ++ r)).getLast?
      exact List.mem_getLast?_append_of_mem_getLast? (List.mem_getLast?_append_of_mem_getLast? hc)
  · rintro ⟨hline, before, after, rfl, hnumber, hbefore, hafter⟩
    refine ⟨hline, p ++ '\n' :: before, after, by simp, ?_, fun c hc => ?_, hafter⟩
    · simp only [List.count_append, List.count_eq_zero_of_not_mem hp, List.count_cons_self]
      omega
    · cases h : before.getLast? with
      | none => simpa [List.getLast?_append, List.getLast?_cons, h] using hc.symm
      | some last =>
          rw [h] at hbefore
          simpa [List.getLast?_append, List.getLast?_cons, h, hbefore last rfl] using hc.symm

end StandsIn

/-- The lines of a text are the lines that stand in it. -/
theorem getElem?_linesOf {text line : List Char} {k : Nat} :
    (linesOf text)[k]? = some line ↔ StandsIn text (k + 1) line := by
  induction text using text_induction generalizing k with
  | last p hp =>
      rw [linesOf_last hp, StandsIn.last_iff hp]
      cases k with
      | zero => simp [eq_comm]
      | succ k => simp
  | line p rest hp ih =>
      rw [linesOf_line hp]
      cases k with
      | zero => simp [StandsIn.first_iff hp, eq_comm]
      | succ k => rw [List.getElem?_cons_succ, ih, StandsIn.later_iff hp]

/-! ## Lines of tokens -/

namespace Lexed

variable {before : Nat} {line : List Char} {rest lines : List (List Char)} {tokens : List Token}

theorem ofLines_of_problem {problem : LexProblem}
    (h : LexedLine.ofChars line = ⟨tokens, some problem⟩) :
    ofLines before (line :: rest) = ⟨[], .failed (before + 1) tokens problem⟩ := by
  simp [ofLines, h]

theorem ofLines_of_skipped (h : LexedLine.ofChars line = ⟨[], none⟩) :
    ofLines before (line :: rest) = ofLines (before + 1) rest := by
  simp [ofLines, h]

theorem ofLines_of_tokens {token : Token} (h : LexedLine.ofChars line = ⟨token :: tokens, none⟩) :
    ofLines before (line :: rest) =
      ⟨⟨before + 1, token :: tokens⟩ :: (ofLines (before + 1) rest).lines,
        (ofLines (before + 1) rest).ending⟩ := by
  simp [ofLines, h]

/-- A line of tokens is cut from a line of the text, and has its number. -/
theorem exists_of_mem_ofLines {l : Line} (h : l ∈ (ofLines before lines).lines) :
    ∃ k line, lines[k]? = some line ∧ l.number = before + k + 1 ∧ l.tokens ≠ [] ∧
      LexedLine.ofChars line = ⟨l.tokens, none⟩ := by
  induction lines generalizing before with
  | nil => cases h
  | cons line rest ih =>
      have later (h : l ∈ (ofLines (before + 1) rest).lines) :
          ∃ k line', (line :: rest)[k]? = some line' ∧ l.number = before + k + 1 ∧ l.tokens ≠ [] ∧
            LexedLine.ofChars line' = ⟨l.tokens, none⟩ := by
        obtain ⟨k, line', hk, hnumber, hcut⟩ := ih h
        exact ⟨k + 1, line', hk, by omega, hcut⟩
      match hcut : LexedLine.ofChars line with
      | ⟨tokens, some problem⟩ => simp [ofLines_of_problem hcut] at h
      | ⟨[], none⟩ =>
          rw [ofLines_of_skipped hcut] at h
          exact later h
      | ⟨token :: tokens, none⟩ =>
          rw [ofLines_of_tokens hcut] at h
          obtain rfl | h := List.mem_cons.mp h
          · exact ⟨0, line, rfl, rfl, List.cons_ne_nil _ _, hcut⟩
          · exact later h

/-- The numbers of the lines increase. -/
theorem pairwise_ofLines : (ofLines before lines).lines.Pairwise (·.number < ·.number) := by
  induction lines generalizing before with
  | nil => exact .nil
  | cons line rest ih =>
      match hcut : LexedLine.ofChars line with
      | ⟨tokens, some problem⟩ =>
          rw [ofLines_of_problem hcut]
          exact .nil
      | ⟨[], none⟩ =>
          rw [ofLines_of_skipped hcut]
          exact ih
      | ⟨token :: tokens, none⟩ =>
          rw [ofLines_of_tokens hcut]
          refine .cons (fun l hl => ?_) ih
          obtain ⟨k, -, -, hnumber, -⟩ := exists_of_mem_ofLines hl
          show before + 1 < l.number
          omega

/-- Without a problem, lexing ends behind the last line, and all tokens of every line are there. -/
theorem finished_ofLines (h : (ofLines before lines).problem? = none) :
    (ofLines before lines).ending = .finished (before + lines.length) ∧
      ∀ k line, lines[k]? = some line → ∃ tokens, LexedLine.ofChars line = ⟨tokens, none⟩ ∧
        (tokens ≠ [] → ⟨before + k + 1, tokens⟩ ∈ (ofLines before lines).lines) := by
  induction lines generalizing before with
  | nil => exact ⟨rfl, nofun⟩
  | cons line rest ih =>
      have hlength : before + (line :: rest).length = before + 1 + rest.length := by
        rw [List.length_cons]
        omega
      have hnumber (k : Nat) : before + 1 + k + 1 = before + (k + 1) + 1 := by omega
      match hcut : LexedLine.ofChars line with
      | ⟨tokens, some problem⟩ =>
          rw [ofLines_of_problem hcut] at h
          cases h
      | ⟨[], none⟩ =>
          rw [ofLines_of_skipped hcut] at h ⊢
          obtain ⟨hending, hall⟩ := ih h
          refine ⟨hlength ▸ hending, fun k line' hk => ?_⟩
          cases k with
          | zero =>
              cases hk
              exact ⟨[], hcut, fun h => absurd rfl h⟩
          | succ k => exact hnumber k ▸ hall k line' hk
      | ⟨token :: tokens, none⟩ =>
          rw [ofLines_of_tokens hcut] at h ⊢
          obtain ⟨hending, hall⟩ := ih h
          refine ⟨hlength ▸ hending, fun k line' hk => ?_⟩
          cases k with
          | zero =>
              cases hk
              exact ⟨token :: tokens, hcut, fun _ => List.mem_cons_self⟩
          | succ k =>
              obtain ⟨tokens', hcut', hmem⟩ := hnumber k ▸ hall k line' hk
              exact ⟨tokens', hcut', fun hne => List.mem_cons_of_mem _ (hmem hne)⟩

end Lexed

/-! ## Malformed lines -/

/-- The issues of a line that has none of the forms. -/
inductive IsMalformed : Issue → Prop
  | unexpectedToken (shown : String) : IsMalformed (.statement (.unexpectedToken shown))
  | emptyStatement : IsMalformed (.statement .emptyStatement)
  | missingValue (property : String) : IsMalformed (.statement (.missingValue property))
  | missingNewName (member : String) : IsMalformed (.statement (.missingNewName member))

/-- A reading that does not fail for the form of the line. -/
def FitsForm {α : Type} (r : Read α) : Prop := ∀ issue, r = .error issue → ¬ IsMalformed issue

namespace FitsForm

variable {α β : Type}

theorem ok (a : α) : FitsForm (.ok a) := nofun

theorem error {issue : Issue} (h : ¬ IsMalformed issue) : FitsForm (.error issue : Read α) := by
  rintro _ ⟨⟩
  exact h

theorem bind {r : Read α} {f : α → Read β} (hr : FitsForm r) (hf : ∀ a, FitsForm (f a)) :
    FitsForm (r >>= f) := by
  cases r with
  | ok a => exact hf a
  | error issue => exact error (hr issue rfl)

end FitsForm

theorem fitsForm_readAssignment (command : String) (args : List Token) :
    FitsForm (readAssignment command args) := by
  unfold readAssignment
  split
  · split
    · exact .ok _
    · exact .error nofun
  · exact .error nofun

theorem fitsForm_readCommand (command : String) (args : List Token) :
    FitsForm (readCommand command args) := by
  unfold readCommand
  split
  · exact (fitsForm_readAssignment _ _).bind fun _ => .ok _
  · split
    · exact .ok _
    · exact .error nofun
  · split
    · exact .ok _
    · exact .error nofun
  · exact (fitsForm_readAssignment _ _).bind fun _ => .ok _
  · exact .error nofun

theorem IsValue.argument? {value : Token} (h : IsValue value) : ∃ s, value.argument? = some s := by
  cases h with
  | value text => exact ⟨text, rfl⟩
  | str text => exact ⟨text, rfl⟩

theorem fitsForm_readEdit_property (name : String) {value : Token} (h : IsValue value) :
    FitsForm (readEdit [.property name, value]) := by
  obtain ⟨s, hs⟩ := h.argument?
  simp only [readEdit, hs]
  exact .ok _

theorem fitsForm_readEdit_rename (member : String) {value : Token} (h : IsValue value) :
    FitsForm (readEdit [.rename member, value]) := by
  obtain ⟨s, hs⟩ := h.argument?
  simp only [readEdit, hs]
  exact .ok _

theorem headOf_cases (word : String) : ∃ name,
    headOf word = .command name ∨ headOf word = .property name ∨ headOf word = .rename name := by
  unfold headOf
  split
  · exact ⟨_, .inl rfl⟩
  · exact ⟨_, .inr (.inl rfl)⟩
  · exact ⟨word, .inr (.inr rfl)⟩

/-- A statement behind a pattern: it is the rest of a line, so a value stands behind its `=`. -/
theorem fitsForm_readNested {args : List Token} (h : IsTail args) : FitsForm (readNested args) := by
  unfold readNested
  split
  next word rest =>
    split
    · exact .error nofun
    split
    next => exact fitsForm_readCommand _ _
    next value hhead =>
      have hvalue : IsValue value := by
        cases h with
        | argument _ hrest =>
            cases hrest with
            | assigned h => exact h
            | argument harg _ => cases harg
      obtain ⟨name, h | h | h⟩ := headOf_cases word
      · exact absurd h (hhead name)
      · exact h ▸ fitsForm_readEdit_property name hvalue
      · exact h ▸ fitsForm_readEdit_rename name hvalue
    next => exact .error nofun
  next => exact .error nofun

theorem fitsForm_readPattern (text : String) : FitsForm (readPattern text) := by
  unfold readPattern
  split
  · exact .ok _
  · exact .error nofun

/-- Behind an argument there is the rest of a line. -/
theorem IsTail.tail {args : List Token} {s : String} (h : IsTail args)
    (hs : args.head?.bind Token.argument? = some s) : IsTail args.tail := by
  cases h with
  | ending => cases hs
  | assigned => cases hs
  | argument _ hrest => exact hrest

theorem fitsForm_readSelection {args : List Token} (h : IsTail args) :
    FitsForm (readSelection args) := by
  unfold readSelection
  split
  next => exact .error nofun
  next hkind =>
    split
    next => exact .error nofun
    next =>
      split
      next => exact .error nofun
      next text htext =>
        have hnested : IsTail (args.drop 2) := by
          rw [← List.tail_drop, List.drop_one]
          exact (h.tail hkind).tail htext
        exact (fitsForm_readPattern text).bind fun _ =>
          (fitsForm_readNested hnested).bind fun _ => .ok _

/-- A line other than a header is not refused for its form. -/
theorem fitsForm_readEffect {ts : List Token} (h : IsLine ts)
    (hfile : ∀ package, ts ≠ [.fileHeader package]) (htype : ∀ name, ts ≠ [.typeHeader name]) :
    FitsForm (readEffect ts) := by
  have lifted {α β : Type} {r : Read α} {f : α → β} (h : FitsForm r) : FitsForm (f <$> r) :=
    h.bind fun _ => .ok _
  cases h with
  | fileHeader => exact absurd rfl (hfile _)
  | typeHeader => exact absurd rfl (htype _)
  | property _ hvalue => exact lifted (fitsForm_readEdit_property _ hvalue)
  | rename _ hvalue => exact lifted (fitsForm_readEdit_rename _ hvalue)
  | @command name tail _ htail =>
      unfold readEffect
      split
      next heq =>
        cases heq
        exact lifted (fitsForm_readSelection htail)
      next => exact lifted (fitsForm_readCommand name tail)

namespace Draft

/-- The reports of a draft are not about the form of a line. -/
def FitsForms (d : Draft) : Prop := ∀ r ∈ d.reports, ¬ IsMalformed r.1

theorem FitsForms.report {d : Draft} {issue : Issue} {line : Nat} (h : d.FitsForms)
    (hissue : ¬ IsMalformed issue) : (d.report issue line).FitsForms :=
  List.forall_mem_append.mpr ⟨h, List.forall_mem_singleton.mpr hissue⟩

theorem FitsForms.push {d : Draft} (h : d.FitsForms) (action : Action) :
    (d.push action).FitsForms := by
  unfold Draft.push
  split
  · exact h
  · exact h
  · exact h.report nofun

theorem FitsForms.addLine {d : Draft} {l : Line} (h : d.FitsForms) (hl : IsLine l.tokens) :
    (d.addLine l).FitsForms := by
  unfold Draft.addLine
  split
  next => exact h
  next => exact h
  next hfile htype =>
    have heffect := fitsForm_readEffect hl (fun _ h => hfile _ _ h) (fun _ h => htype _ _ h)
    split
    next => exact h.push _
    next issue hissue => exact h.report (heffect issue hissue)

theorem fitsForms_ofLines {lines : List Line} (h : ∀ l ∈ lines, IsLine l.tokens) :
    (ofLines lines).FitsForms := by
  suffices hfold : ∀ d : Draft, d.FitsForms → (lines.foldl addLine d).FitsForms from hfold {} nofun
  induction lines with
  | nil => exact fun _ hd => hd
  | cons l rest ih =>
      rw [List.forall_mem_cons] at h
      exact fun d hd => ih h.2 _ (hd.addLine h.1)

end Draft

/-! ## Lines of scripts -/

theorem isLine_of_mem_ofText {text : String} {l : Line} (h : l ∈ (Lexed.ofText text).lines) :
    IsLine l.tokens ∧ (∀ t ∈ l.tokens, ∀ s ∈ t.text?, '\n' ∉ s.toList) ∧
      ∃ line, StandsIn text.toList l.number line ∧ IsStatement line ∧
        LexedLine.ofChars line = ⟨l.tokens, none⟩ := by
  obtain ⟨k, line, hk, hnumber, hne, hcut⟩ := Lexed.exists_of_mem_ofLines h
  have hstands := getElem?_linesOf.mp hk
  have ⟨htexts, hform⟩ := cut_ofChars hstands.noFeed
  rw [hcut] at htexts hform
  obtain ⟨hstatement, hline⟩ | ⟨-, hnil⟩ := hform rfl
  · rw [Nat.zero_add] at hnumber
    refine ⟨hline, fun t ht s hs hfeed => hstands.noFeed (htexts t ht s hs hfeed), line, ?_,
      hstatement, hcut⟩
    rwa [hnumber]
  · exact absurd hnil hne

/-- The lines of tokens of a text have the forms of lines, the number of their place, and no line
feed in a text.  If the text can be cut into tokens, they are all its lines but the skipped ones,
and the end stands behind them on the last line.  No line is refused for its form. -/
theorem ofText_lines (text : String) :
    (∀ l ∈ (Lexed.ofText text).lines,
      IsLine l.tokens ∧ (∀ t ∈ l.tokens, ∀ s ∈ t.text?, '\n' ∉ s.toList) ∧
        ∃ line, StandsIn text.toList l.number line ∧ IsStatement line ∧
          LexedLine.ofChars line = ⟨l.tokens, none⟩) ∧
    (Lexed.ofText text).lines.Pairwise (·.number < ·.number) ∧
    ((Lexed.ofText text).problem? = none →
      (Lexed.ofText text).tokens =
        (Lexed.ofText text).lines.flatMap
          (fun l => (l.tokens ++ [.newline]).map (⟨·, l.number⟩)) ++
          [⟨.eof, text.toList.count '\n' + 1⟩] ∧
      ∀ number line, StandsIn text.toList number line → IsStatement line →
        ∃ l ∈ (Lexed.ofText text).lines, l.number = number) ∧
    ∀ file, ∀ r ∈ (read ⟨file, text⟩).2, ¬ IsMalformed r.1 := by
  refine ⟨fun l hl => isLine_of_mem_ofText hl, Lexed.pairwise_ofLines, fun hproblem => ⟨?_, ?_⟩, ?_⟩
  · have hending := (Lexed.finished_ofLines hproblem).1
    rw [length_linesOf, Nat.zero_add] at hending
    rw [Lexed.tokens, Lexed.ofText, hending]
  · intro number line hstands hstatement
    obtain ⟨k, rfl⟩ : ∃ k, number = k + 1 := by
      obtain ⟨_, _, -, h, -⟩ := hstands.split
      exact ⟨_, h⟩
    obtain ⟨tokens, hcut, hmem⟩ :=
      (Lexed.finished_ofLines hproblem).2 k line (getElem?_linesOf.mpr hstands)
    have hform := (cut_ofChars hstands.noFeed).form
    rw [hcut] at hform
    obtain ⟨-, hline⟩ | ⟨hskipped, -⟩ := hform rfl
    · refine ⟨_, hmem ?_, by simp⟩
      rintro rfl
      cases hline
    · exact absurd hstatement hskipped
  · intro file
    have hreports : (Draft.ofLines (Lexed.ofText text).lines).FitsForms :=
      Draft.fitsForms_ofLines fun l hl => (isLine_of_mem_ofText hl).1
    dsimp only [read]
    split
    · exact hreports
    · exact List.forall_mem_append.mpr ⟨hreports, List.forall_mem_singleton.mpr nofun⟩

example :
    (Lexed.ofText "# dom\n\n ## no header\n@on any . .name = \"a b\"\r\n").tokens =
      [⟨.fileHeader "dom", 1⟩, ⟨.newline, 1⟩, ⟨.command "on", 4⟩, ⟨.word "any", 4⟩,
        ⟨.word ".", 4⟩, ⟨.word ".name", 4⟩, ⟨.assign, 4⟩, ⟨.str "a b", 4⟩, ⟨.newline, 4⟩,
        ⟨.eof, 5⟩] := by
  decide +kernel

end IdlModel.Script
