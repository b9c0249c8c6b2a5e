import IdlModel.Proofs.LocalLexing
import IdlModel.Proofs.ScriptReading
import IdlModel.Proofs.SpacedParts

/-!
# Statements behind a pattern

A statement may stand in a block or behind a pattern of `@on`.  In a block it starts its line, and
its first token is a property, a member or a command.  Behind a pattern it is among the arguments
of a command: its first token is a word, and its `=` is a token.

If the parts of a statement are set apart by gaps, it is cut into tokens in both places:
`IsSpaced.restated`.  Both are read alike: `Restated.readNested`.  So a block gets the edit of the
statement, by itself or in a selection: `readEffect_selected`.
-/

namespace IdlModel.Script

variable {cs gaps rest : List Char}

/-! ## Statements with gaps -/

/-- A statement other than `@on` with gaps between its parts: a gap or the end of the line stands
behind its first name, and gaps stand on both sides of `=`. -/
inductive IsSpaced : List Char → Prop
  | property {name : String} {gaps rest : List Char} (hname : IsName name) (hgaps : IsGaps gaps)
      (hne : gaps ≠ []) (hrest : StartsWithGap rest) :
      IsSpaced ('.' :: (name.toList ++ (gaps ++ '=' :: rest)))
  | rename {member : String} {gaps rest : List Char} (hmember : IsName member)
      (hgaps : IsGaps gaps) (hne : gaps ≠ []) (hrest : StartsWithGap rest) :
      IsSpaced (member.toList ++ (gaps ++ '=' :: rest))
  | command {name : String} {rest : List Char} (hname : IsName name) (hon : name ≠ "on")
      (hrest : StartsWithGap rest) : IsSpaced ('@' :: (name.toList ++ rest))

/-- The tokens of a statement, and its tokens among the arguments of a command. -/
inductive Restated : List Token → List Token → Prop
  | property (name : String) (value : Token) :
      Restated [.property name, value] [.word ("." ++ name), .assign, value]
  | rename {member : String} (hmember : IsName member) (value : Token) :
      Restated [.rename member, value] [.word member, .assign, value]
  | command {name : String} (hon : name ≠ "on") (args : List Token) :
      Restated (.command name :: args) (.word ("@" ++ name) :: args)

/-! ## Cutting -/

/-- A name with a mark before it is a word. -/
theorem isArgument_marked {mark name : String} (hmark : ∀ c ∈ mark.toList, isWordPart c = true)
    (hname : IsName name) : IsArgument (.word (mark ++ name)) := by
  have hparts := isWordPart_of_isName hname
  obtain ⟨c, cs, hcs, hc, -⟩ := hname
  refine .word (fun h => ?_) (fun h => ?_) ?_
  · simpa [hcs] using congrArg String.toList h
  · have h := congrArg String.toList h
    rw [String.toList_append, hcs] at h
    obtain ⟨-, h⟩ | ⟨-, h⟩ := List.append_eq_singleton_iff.mp h
    · obtain rfl := (List.cons.inj h).1
      exact absurd hc (by decide)
    · cases h
  · rw [String.toList_append]
    exact List.forall_mem_append.mpr ⟨hmark, hparts⟩

/-- Among arguments, the first word of a spaced statement and its `=` are taken by themselves. -/
theorem arguments_assignment {word : String} (hword : IsArgument (.word word))
    (hquote : word.toList.head? ≠ some '"') (hgaps : IsGaps gaps) (hne : gaps ≠ [])
    (hrest : StartsWithGap rest) :
    LexedLine.arguments (word.toList ++ (gaps ++ '=' :: rest)) =
      ((LexedLine.assigned rest).cons .assign).cons (.word word) := by
  rw [arguments_word hword hquote (hgaps.startsWithGap_append hne), arguments_append hgaps,
    arguments_assign hrest]

/-- A value is one token. -/
theorem exists_value_of_cons {token : Token} {tokens : List Token}
    (h : (LexedLine.assigned rest).cons token = ⟨tokens, none⟩) :
    ∃ value, LexedLine.assigned rest = ⟨[value], none⟩ ∧ tokens = [token, value] := by
  have hcut := (cut_assigned rest).form
  obtain ⟨htokens, hproblem⟩ := LexedLine.mk.inj h
  obtain ⟨value, hvalue, -⟩ := hcut hproblem
  refine ⟨value, ?_, by rw [← htokens, hvalue]⟩
  cases hassigned : LexedLine.assigned rest with
  | mk tokens' problem' =>
      rw [hassigned] at hvalue hproblem
      obtain rfl : tokens' = [value] := hvalue
      obtain rfl : problem' = none := hproblem
      rfl

/-- A spaced statement that is cut into tokens is also cut among the arguments of a command. -/
theorem IsSpaced.restated {tokens : List Token} (h : IsSpaced cs)
    (hcut : LexedLine.ofChars cs = ⟨tokens, none⟩) :
    ∃ args, LexedLine.arguments cs = ⟨args, none⟩ ∧ Restated tokens args := by
  cases h with
  | @property name gaps rest hname hgaps hne hrest =>
      rw [ofChars_property hname hgaps] at hcut
      obtain ⟨value, hvalue, rfl⟩ := exists_value_of_cons hcut
      have hmark : ∀ c ∈ ".".toList, isWordPart c = true := List.all_eq_true.mp rfl
      have hword := isArgument_marked hmark hname
      have harguments := arguments_assignment hword (by simp) hgaps hne hrest
      rw [String.toList_append, hvalue] at harguments
      exact ⟨_, harguments, .property name value⟩
  | @rename member gaps rest hmember hgaps hne hrest =>
      rw [ofChars_rename hmember hgaps] at hcut
      obtain ⟨value, hvalue, rfl⟩ := exists_value_of_cons hcut
      have hword : IsArgument (.word ("" ++ member)) := isArgument_marked nofun hmember
      rw [String.empty_append] at hword
      have hquote : member.toList.head? ≠ some '"' := by
        obtain ⟨c, cs, hcs, hc, -⟩ := hmember
        rw [hcs]
        rintro ⟨⟩
        exact absurd hc (by decide)
      have harguments := arguments_assignment hword hquote hgaps hne hrest
      rw [hvalue] at harguments
      exact ⟨_, harguments, .rename hmember value⟩
  | @command name rest hname hon hrest =>
      rw [ofChars_command hname hrest] at hcut
      obtain ⟨rfl, hproblem⟩ := LexedLine.mk.inj hcut
      have hmark : ∀ c ∈ "@".toList, isWordPart c = true := List.all_eq_true.mp rfl
      have hword := isArgument_marked hmark hname
      have harguments := arguments_word hword (by simp) hrest
      rw [String.toList_append] at harguments
      refine ⟨.word ("@" ++ name) :: (LexedLine.arguments rest).tokens, ?_, .command hon _⟩
      exact harguments.trans (congrArg (LexedLine.mk _) hproblem)

/-- Behind `@on any . `, a line goes on as arguments. -/
theorem ofChars_selected (line : String) :
    LexedLine.ofChars ("@on any . " ++ line).toList =
      (((LexedLine.arguments line.toList).cons (.word ".")).cons (.word "any")).cons
        (.command "on") := by
  have hgap : IsGaps [' '] := List.forall_mem_singleton.mpr rfl
  have hname : IsName "on" := by decide
  have hany : IsArgument (.word "any") :=
    .word (by decide) (by decide) (List.all_eq_true.mp rfl)
  have hdot : IsArgument (.word ".") := .word (by decide) (by decide) (List.all_eq_true.mp rfl)
  have hstarts (cs : List Char) : StartsWithGap ([' '] ++ cs) :=
    hgap.startsWithGap_append (List.cons_ne_nil _ _)
  have hline : ("@on any . " ++ line).toList = '@' :: ("on".toList ++
      ([' '] ++ ("any".toList ++ ([' '] ++ (".".toList ++ ([' '] ++ line.toList)))))) := by
    rw [String.toList_append]
    rfl
  rw [hline, ofChars_command hname (hstarts _), arguments_append hgap,
    arguments_word hany (by decide) (hstarts _), arguments_append hgap,
    arguments_word hdot (by decide) (hstarts _), arguments_append hgap]

/-! ## Reading -/

/-- A name has no mark. -/
theorem headOf_of_isName {member : String} (h : IsName member) :
    headOf member = .rename member := by
  obtain ⟨c, cs, hcs, hc, -⟩ := h
  unfold headOf
  split
  next heq =>
    obtain rfl := (List.cons.inj (hcs.symm.trans heq)).1
    exact absurd hc (by decide)
  next heq =>
    obtain rfl := (List.cons.inj (hcs.symm.trans heq)).1
    exact absurd hc (by decide)
  next => rfl

/-- What stands behind `any .` is selected for every name. -/
theorem readSelection_any {dot : Pattern} (hdot : Pattern.ofText "." = .ok dot)
    (args : List Token) :
    readSelection (.word "any" :: .word "." :: args) =
      (⟨.any, dot, ·⟩) <$> readNested args := by
  have hpattern : readPattern "." = .ok dot := by rw [readPattern, hdot]
  have hselection : readSelection (.word "any" :: .word "." :: args) = (do
      let pattern ← readPattern "."
      let edit ← readNested args
      return ⟨.any, pattern, edit⟩) := rfl
  rw [hselection, hpattern]
  cases readNested args <;> rfl

namespace Restated

variable {tokens args : List Token}

/-- A statement is read alike by itself and behind a pattern. -/
theorem readNested (h : Restated tokens args) : readNested args = readEdit tokens := by
  cases h with
  | property name value =>
      have hhead : headOf ("." ++ name) = .property name := by simp [headOf]
      have hon : "." ++ name ≠ "@on" := fun h => by simpa using congrArg String.toList h
      simp only [Script.readNested, if_neg hon, hhead]
  | @rename member hmember value =>
      have hhead : headOf member = .rename member := headOf_of_isName hmember
      have hon : member ≠ "@on" := by
        rintro rfl
        cases hhead
      simp only [Script.readNested, if_neg hon, hhead]
  | @command name hon args =>
      have hhead : headOf ("@" ++ name) = .command name := by simp [headOf]
      have hon' : "@" ++ name ≠ "@on" := fun h => by
        have hlist := congrArg String.toList h
        rw [String.toList_append] at hlist
        exact hon (String.toList_inj.mp (List.cons.inj hlist).2)
      simp only [Script.readNested, if_neg hon', hhead]

/-- It is no selection by itself. -/
theorem readEffect (h : Restated tokens args) : readEffect tokens = .edit <$> readEdit tokens := by
  cases h with
  | property | rename => rfl
  | command hon args =>
      unfold Script.readEffect
      split
      next heq =>
        cases heq
        exact absurd rfl hon
      next => rfl

theorem exists_cons (h : Restated tokens args) : ∃ token rest, tokens = token :: rest := by
  cases h with
  | property | rename | command => exact ⟨_, _, rfl⟩

/-- It is no header. -/
theorem isStatement (h : Restated tokens args) (number : Nat) :
    (Line.mk number tokens).isStatement = true := by
  cases h with
  | property | rename | command => rfl

end Restated

/-! ## Blocks -/

/-- Reading keeps this: without an open block, there is none among the items. -/
def Draft.IsOutside (d : Draft) : Prop :=
  d.block = none → ∀ b, Item.block b ∉ d.items

theorem Draft.IsOutside.addLine {d : Draft} (h : d.IsOutside) (l : Line) :
    (d.addLine l).IsOutside := by
  unfold Draft.addLine
  split
  · exact h
  · exact nofun
  split
  next effect _ =>
    obtain ⟨package, items, block, reports⟩ := d
    match block, effect with
    | some b, _ => exact nofun
    | none, .select s => simpa [push, IsOutside] using h
    | none, .edit e => exact h
  next => exact h

theorem Draft.isOutside_ofLines (lines : List Line) : (Draft.ofLines lines).IsOutside := by
  suffices h : ∀ d : Draft, d.IsOutside → (lines.foldl Draft.addLine d).IsOutside from
    h {} fun _ _ => List.not_mem_nil
  induction lines with
  | nil => exact fun d h => h
  | cons l rest ih => exact fun d h => ih _ (h.addLine l)

/-- The last block of the items is the open one. -/
theorem Draft.block_of_allItems {lines : List Line} {items : List Item} {b : Block}
    (h : (Draft.ofLines lines).allItems = items ++ [.block b]) :
    (Draft.ofLines lines).items = items ∧ (Draft.ofLines lines).block = some b := by
  have houtside := isOutside_ofLines lines
  rw [allItems] at h
  cases hblock : (Draft.ofLines lines).block with
  | none =>
      rw [hblock, Option.map_none, Option.toList_none, List.append_nil] at h
      exact absurd (h ▸ List.mem_append_right items List.mem_cons_self) (houtside hblock b)
  | some b' =>
      rw [hblock] at h
      obtain ⟨hitems, hb⟩ := List.append_inj' h rfl
      cases hb
      exact ⟨hitems, rfl⟩

/-- What a script and its reports come to with one more statement in its last block. -/
def withStatement (file : String) (items : List Item) (b : Block) (reports : List (Issue × Nat))
    (line : Nat) : Read Effect → Option Script × List (Issue × Nat)
  | .ok effect =>
      let b' := { b with actions := b.actions ++ [⟨effect, line⟩] }
      (some { file, items := items ++ [.block b'] }, reports)
  | .error issue => (some { file, items := items ++ [.block b] }, reports ++ [(issue, line)])

/-- A text is a script if it can be cut into tokens. -/
theorem read_eq_some_iff {source : Source} {script : Script} {reports : List (Issue × Nat)} :
    read source = (some script, reports) ↔
      (Lexed.ofText source.text).problem? = none ∧
        script = ⟨source.file, (Draft.ofLines (Lexed.ofText source.text).lines).allItems⟩ ∧
        reports = (Draft.ofLines (Lexed.ofText source.text).lines).reports := by
  cases h : (Lexed.ofText source.text).problem? with
  | none => simp [read, h, eq_comm]
  | some problem => simp [read, h]

/-- A line behind a text adds its tokens. -/
theorem Lexed.ofText_append_line {a line : String} {token : Token} {tokens : List Token}
    (hfull : a = "" ∨ a.toList.getLast? = some '\n') (hclean : (ofText a).problem? = none)
    (hfeed : '\n' ∉ line.toList)
    (hcut : LexedLine.ofChars line.toList = ⟨token :: tokens, none⟩) :
    (ofText (a ++ line)).problem? = none ∧
      (ofText (a ++ line)).lines =
        (ofText a).lines ++ [⟨a.toList.count '\n' + 1, token :: tokens⟩] := by
  have hfull := hfull.imp_left String.toList_eq_nil_iff.mpr
  obtain ⟨front, hlength, hlines, hfront⟩ := exists_linesOf_append hfull
  have hlines' : linesOf (a ++ line).toList = front ++ [line.toList] := by
    rw [String.toList_append, hfront, linesOf_last hfeed]
  have hclean : (ofLines 0 front).problem? = none := problem?_ofLines_append [[]] (hlines ▸ hclean)
  rw [ofText, ofText, hlines, hlines', ofLines_append hclean, ofLines_append hclean,
    ofLines_of_tokens hcut, ofLines_of_skipped rfl, hlength, Nat.zero_add]
  exact ⟨rfl, by rw [ofLines, List.append_nil]⟩

/-- A statement behind a text goes into the last block of the text. -/
theorem read_append {file a line : String} {items : List Item} {b : Block}
    {reports : List (Issue × Nat)} {token : Token} {tokens : List Token}
    (hfull : a = "" ∨ a.toList.getLast? = some '\n')
    (hread : read ⟨file, a⟩ = (some ⟨file, items ++ [.block b]⟩, reports))
    (hfeed : '\n' ∉ line.toList) (hcut : LexedLine.ofChars line.toList = ⟨token :: tokens, none⟩)
    (hstatement : ∀ number, (Line.mk number (token :: tokens)).isStatement = true) :
    read ⟨file, a ++ line⟩ = withStatement file items b reports (a.toList.count '\n' + 1)
      (readEffect (token :: tokens)) := by
  obtain ⟨hclean, hscript, rfl⟩ := read_eq_some_iff.mp hread
  obtain ⟨hitems, hblock⟩ := Draft.block_of_allItems (Script.mk.inj hscript).2.symm
  obtain ⟨hclean', hlines⟩ := Lexed.ofText_append_line hfull hclean hfeed hcut
  have hadd : Draft.ofLines (Lexed.ofText (a ++ line)).lines =
      (Draft.ofLines (Lexed.ofText a).lines).addLine
        ⟨a.toList.count '\n' + 1, token :: tokens⟩ := by
    rw [hlines, Draft.ofLines, List.foldl_append]
    rfl
  rw [Draft.addLine_of_isStatement (hstatement _), hblock] at hadd
  cases heffect : readEffect (token :: tokens) with
  | ok effect | error issue =>
      refine read_eq_some_iff.mpr ⟨hclean', ?_, ?_⟩
      all_goals
        rw [hadd]
        simp [Draft.allItems, Draft.addOutcomes, outcome, heffect, hitems, hblock,
          List.filterMap_cons]

/-- A statement with gaps between its parts means the same in a block and behind a pattern.  If a
line with such a statement is cut into tokens, it is also cut behind `@on any . `, and what the
line gives by itself, an edit or an issue, is what the selection gives for every name.  So in the
last block of any script the two lines give an action with the edit and one with the selection of
it, or the same report. -/
theorem readEffect_selected {line : String} {tokens : List Token} (hfeed : '\n' ∉ line.toList)
    (hspaced : IsSpaced line.toList) (hcut : LexedLine.ofChars line.toList = ⟨tokens, none⟩) :
    ∃ dot selected, Pattern.ofText "." = .ok dot ∧
      LexedLine.ofChars ("@on any . " ++ line).toList = ⟨selected, none⟩ ∧
      ∃ r : Read Edit, readEffect tokens = .edit <$> r ∧
        readEffect selected = (.select ⟨.any, dot, ·⟩) <$> r ∧
        ∀ file a items b reports, a = "" ∨ a.toList.getLast? = some '\n' →
          read ⟨file, a⟩ = (some ⟨file, items ++ [.block b]⟩, reports) →
          let added := withStatement file items b reports (a.toList.count '\n' + 1)
          read ⟨file, a ++ line⟩ = added (.edit <$> r) ∧
            read ⟨file, a ++ ("@on any . " ++ line)⟩ = added ((.select ⟨.any, dot, ·⟩) <$> r) := by
  obtain ⟨dot, hdot⟩ : ∃ dot, Pattern.ofText "." = .ok dot := ⟨_, rfl⟩
  obtain ⟨args, hargs, hrestated⟩ := hspaced.restated hcut
  have hselected : LexedLine.ofChars ("@on any . " ++ line).toList =
      ⟨.command "on" :: .word "any" :: .word "." :: args, none⟩ := by
    rw [ofChars_selected, hargs]
    rfl
  have hselection : readEffect (.command "on" :: .word "any" :: .word "." :: args) =
      (.select ⟨.any, dot, ·⟩) <$> readEdit tokens := by
    rw [readEffect, readSelection_any hdot, hrestated.readNested]
    cases readEdit tokens <;> rfl
  refine ⟨dot, _, hdot, hselected, readEdit tokens, hrestated.readEffect, hselection, ?_⟩
  intro file a items b reports hfull hread added
  have hfeed' : '\n' ∉ ("@on any . " ++ line).toList := by
    rw [String.toList_append]
    exact fun h => (List.mem_append.mp h).elim (by decide) hfeed
  obtain ⟨token, tokens, rfl⟩ := hrestated.exists_cons
  constructor
  · rw [← hrestated.readEffect]
    exact read_append hfull hread hfeed hcut hrestated.isStatement
  · rw [← hselection]
    exact read_append hfull hread hfeed' hselected fun _ => rfl

/-- A property with a string in a block. -/
theorem readEffect_selected_property :
    let text := "## Node\n@on any . .name = \"a b\" \t"
    ∃ dot, Pattern.ofText "." = .ok dot ∧
      read ⟨"dom", text⟩ =
        (some ⟨"dom", [.block ⟨"Node", 1, [⟨.select ⟨.any, dot, .setProperty "name" "a b"⟩, 2⟩]⟩]⟩,
          []) := by
  have hname : IsName "name" := by decide
  have hgap : IsGaps [' '] := List.forall_mem_singleton.mpr rfl
  have hrest : StartsWithGap " \"a b\" \t".toList := by
    rintro _ ⟨⟩
    rfl
  have hspaced : IsSpaced ".name = \"a b\" \t".toList :=
    IsSpaced.property hname hgap (List.cons_ne_nil _ _) hrest
  have hcut : LexedLine.ofChars ".name = \"a b\" \t".toList =
      ⟨[.property "name", .str "a b"], none⟩ := by decide +kernel
  have hnode : read ⟨"dom", "## Node\n"⟩ = (some ⟨"dom", [] ++ [.block ⟨"Node", 1, []⟩]⟩, []) := rfl
  obtain ⟨dot, selected, hdot, -, r, hr, -, hread⟩ := readEffect_selected (by decide) hspaced hcut
  obtain rfl : r = .ok (.setProperty "name" "a b") := by
    cases r <;> cases hr
    rfl
  exact ⟨dot, hdot, (hread "dom" "## Node\n" [] ⟨"Node", 1, []⟩ [] (.inr (by decide)) hnode).2⟩

end IdlModel.Script
