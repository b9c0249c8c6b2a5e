import IdlModel.Proofs.Scanning
import IdlModel.Proofs.SpacedParts

/-!
# Quoted strings

Every text without a line feed can be written as a string: in quotes, with a backslash before each
of its own quotes and backslashes (`inQuotes`).

*One string.*  What is read from `inQuotes s` is `s`, and what stands behind the closing quote is
left, whatever it is: `takeString?_escaped`.  A scanner stands exactly there: `step_inQuotes`.

*Statements.*  A value and the arguments of a command may be written in quotes.  A statement that
is written so is lexed into its own tokens: `WrittenStatement.ofChars`.
-/

namespace IdlModel.Script

variable {gaps rest : List Char}

/-! ## One string -/

/-- A text with a backslash before every quote and every backslash. -/
def escaped (s : List Char) : List Char :=
  s.flatMap fun c => if c = '"' ∨ c = '\\' then ['\\', c] else [c]

/-- A text in quotes. -/
def inQuotes (s : List Char) : List Char := '"' :: (escaped s ++ ['"'])

theorem escaped_cons_special {c : Char} (hc : c = '"' ∨ c = '\\') (s : List Char) :
    escaped (c :: s) = '\\' :: c :: escaped s := by
  rw [escaped, List.flatMap_cons, if_pos hc]
  rfl

theorem escaped_cons_plain {c : Char} (hc : ¬ (c = '"' ∨ c = '\\')) (s : List Char) :
    escaped (c :: s) = c :: escaped s := by
  rw [escaped, List.flatMap_cons, if_neg hc]
  rfl

/-- The string that is read from an escaped text is the text, up to the closing quote. -/
theorem takeString?_escaped (s rest : List Char) :
    takeString? (escaped s ++ '"' :: rest) = some (s, rest) := by
  induction s with
  | nil => rfl
  | cons c s ih =>
      by_cases hc : c = '"' ∨ c = '\\'
      · rw [escaped_cons_special hc, List.cons_append, List.cons_append, takeString?, ih, if_pos hc]
        rfl
      · obtain ⟨hquote, hslash⟩ := not_or.mp hc
        rw [escaped_cons_plain hc, List.cons_append, takeString?, ih]
        · rfl
        all_goals simp [hquote, hslash]

/-- A scanner reads the same, if the text has no line feed. -/
theorem takeLineString?_escaped {s : List Char} (hs : '\n' ∉ s) (rest : List Char) :
    takeLineString? (escaped s ++ '"' :: rest) = some (s, rest) := by
  induction s with
  | nil => rfl
  | cons c s ih =>
      obtain ⟨hfeed, hs⟩ := not_or.mp (mt List.mem_cons.mpr hs)
      by_cases hc : c = '"' ∨ c = '\\'
      · rw [escaped_cons_special hc, List.cons_append, List.cons_append, takeLineString?, ih hs,
          if_pos hc]
        · rfl
        · exact fun h => hfeed h.symm
      · obtain ⟨hquote, hslash⟩ := not_or.mp hc
        rw [escaped_cons_plain hc, List.cons_append, takeLineString?, ih hs]
        · rfl
        all_goals simp [hquote, hslash, Ne.symm hfeed]

theorem inQuotes_append (s rest : List Char) :
    inQuotes s ++ rest = '"' :: (escaped s ++ '"' :: rest) := by
  rw [inQuotes, List.cons_append, List.append_assoc, List.singleton_append]

theorem dropGaps_inQuotes (hgaps : IsGaps gaps) (s : List Char) :
    dropGaps (gaps ++ (inQuotes s ++ rest)) = '"' :: (escaped s ++ '"' :: rest) := by
  rw [inQuotes_append]
  exact dropGaps_append_cons hgaps rfl

/-- A scanner reads a string from its text in quotes, and stands behind the closing quote. -/
theorem step_inQuotes {s : String} (hs : '\n' ∉ s.toList) (hgaps : IsGaps gaps) (number : Nat) :
    Scanner.step ⟨gaps ++ (inQuotes s.toList ++ rest), number, .value⟩ =
        .token (.str s) ⟨rest, number, .lineEnd⟩ ∧
      Scanner.step ⟨gaps ++ (inQuotes s.toList ++ rest), number, .argument⟩ =
        .token (.str s) ⟨rest, number, .argument⟩ := by
  have hdrop : dropGaps (gaps ++ (inQuotes s.toList ++ rest)) = _ :=
    dropGaps_inQuotes hgaps s.toList
  have hstring := takeLineString?_escaped hs rest
  constructor
  · simp [Scanner.step, hdrop, atLineEnd, Scanner.string, hstring, Scanner.goTo]
  · simp [Scanner.step, hdrop, atLineEnd, Scanner.string, hstring, Scanner.goTo]

/-! ## Lines -/

theorem assigned_inQuotes (s : String) (hgaps : IsGaps gaps) :
    LexedLine.assigned (gaps ++ (inQuotes s.toList ++ rest)) =
      (LexedLine.ending rest).cons (.str s) := by
  simp [LexedLine.assigned, dropGaps_inQuotes hgaps, takeString?_escaped]

theorem arguments_inQuotes (s : String) :
    LexedLine.arguments (inQuotes s.toList ++ rest) =
      (LexedLine.arguments rest).cons (.str s) := by
  rw [inQuotes_append, LexedLine.arguments, if_neg (by decide), if_pos rfl]
  split
  next text after h =>
    rw [takeString?_escaped] at h
    cases h
    rw [String.ofList_toList]
  next h =>
    rw [takeString?_escaped] at h
    cases h

theorem ending_of_isGaps (hgaps : IsGaps gaps) : LexedLine.ending gaps = {} := by
  rw [LexedLine.ending, dropGaps_of_isGaps hgaps]

/-! ## Statements -/

/-- `=` and a value in quotes. -/
inductive WrittenValue (s : String) : List Char → Prop
  | mk {gaps before after : List Char} (hgaps : IsGaps gaps) (hbefore : IsGaps before)
      (hafter : IsGaps after) :
      WrittenValue s (gaps ++ '=' :: (before ++ (inQuotes s.toList ++ after)))

/-- What is written behind the name of a command.  There are gaps before the words and the
strings, and on both sides of `=`. -/
inductive WrittenArguments : List Token → List Char → Prop
  | ending {gaps : List Char} (hgaps : IsGaps gaps) : WrittenArguments [] gaps
  | word {word : String} {gaps text : List Char} {args : List Token}
      (hword : IsArgument (.word word)) (hquote : word.toList.head? ≠ some '"')
      (hgaps : IsGaps gaps) (hne : gaps ≠ []) (hargs : WrittenArguments args text) :
      WrittenArguments (.word word :: args) (gaps ++ (word.toList ++ text))
  | str {s : String} {gaps text : List Char} {args : List Token} (hs : '\n' ∉ s.toList)
      (hgaps : IsGaps gaps) (hne : gaps ≠ []) (hargs : WrittenArguments args text) :
      WrittenArguments (.str s :: args) (gaps ++ (inQuotes s.toList ++ text))
  | assigned {s : String} {gaps before after : List Char} (hs : '\n' ∉ s.toList)
      (hgaps : IsGaps gaps) (hne : gaps ≠ []) (hbefore : IsGaps before) (hne' : before ≠ [])
      (hafter : IsGaps after) :
      WrittenArguments [.assign, .str s]
        (gaps ++ '=' :: (before ++ (inQuotes s.toList ++ after)))

/-- A statement, and how it is written with quoted strings. -/
inductive WrittenStatement : List Token → List Char → Prop
  | property {name s : String} {text : List Char} (hname : IsName name) (hs : '\n' ∉ s.toList)
      (hvalue : WrittenValue s text) :
      WrittenStatement [.property name, .str s] ('.' :: (name.toList ++ text))
  | rename {member s : String} {text : List Char} (hmember : IsName member)
      (hs : '\n' ∉ s.toList) (hvalue : WrittenValue s text) :
      WrittenStatement [.rename member, .str s] (member.toList ++ text)
  | command {name : String} {args : List Token} {text : List Char} (hname : IsName name)
      (hargs : WrittenArguments args text) :
      WrittenStatement (.command name :: args) ('@' :: (name.toList ++ text))

theorem WrittenArguments.startsWithGap {args : List Token} {text : List Char}
    (h : WrittenArguments args text) : StartsWithGap text := by
  cases h with
  | ending hgaps => exact hgaps.startsWithGap
  | word _ _ hgaps hne _ => exact hgaps.startsWithGap_append hne
  | str _ hgaps hne _ => exact hgaps.startsWithGap_append hne
  | assigned _ hgaps hne => exact hgaps.startsWithGap_append hne

theorem WrittenArguments.arguments {args : List Token} {text : List Char}
    (h : WrittenArguments args text) : LexedLine.arguments text = ⟨args, none⟩ := by
  induction h with
  | ending hgaps => exact arguments_of_isGaps hgaps
  | word hword hquote hgaps _ hargs ih =>
      rw [arguments_append hgaps, arguments_word hword hquote hargs.startsWithGap, ih]
      rfl
  | str _ hgaps _ _ ih =>
      rw [arguments_append hgaps, arguments_inQuotes, ih]
      rfl
  | assigned _ hgaps _ hbefore hne' hafter =>
      rw [arguments_append hgaps, arguments_assign (hbefore.startsWithGap_append hne'),
        assigned_inQuotes _ hbefore, ending_of_isGaps hafter]
      rfl

/-- A statement that is written with quoted strings is lexed into its tokens. -/
theorem WrittenStatement.ofChars {tokens : List Token} {text : List Char}
    (h : WrittenStatement tokens text) : LexedLine.ofChars text = ⟨tokens, none⟩ := by
  cases h with
  | property hname _ hvalue =>
      obtain ⟨hgaps, hbefore, hafter⟩ := hvalue
      rw [ofChars_property hname hgaps, assigned_inQuotes _ hbefore, ending_of_isGaps hafter]
      rfl
  | rename hmember _ hvalue =>
      obtain ⟨hgaps, hbefore, hafter⟩ := hvalue
      rw [ofChars_rename hmember hgaps, assigned_inQuotes _ hbefore, ending_of_isGaps hafter]
      rfl
  | command hname hargs =>
      rw [ofChars_command hname hargs.startsWithGap, hargs.arguments]
      rfl

/-! ## Texts -/

theorem IsGaps.noFeed (h : IsGaps gaps) : '\n' ∉ gaps := fun hfeed => by
  have := h _ hfeed
  cases this

theorem noFeed_inQuotes {s : List Char} (hs : '\n' ∉ s) : '\n' ∉ inQuotes s := by
  have hescaped : '\n' ∉ escaped s := by
    intro hfeed
    obtain ⟨c, hc, hfeed⟩ := List.mem_flatMap.mp hfeed
    split at hfeed
    next hspecial =>
      obtain rfl | rfl := hspecial <;> simp at hfeed
    next => exact hs (List.mem_singleton.mp hfeed ▸ hc)
  simp [inQuotes, hescaped]

theorem IsName.noFeed {name : String} (h : IsName name) : '\n' ∉ name.toList := fun hfeed => by
  have := isWordPart_of_isName h _ hfeed
  cases this

theorem WrittenValue.noFeed {s : String} {text : List Char} (hs : '\n' ∉ s.toList)
    (h : WrittenValue s text) : '\n' ∉ text := by
  obtain ⟨hgaps, hbefore, hafter⟩ := h
  simp [hgaps.noFeed, hbefore.noFeed, hafter.noFeed, noFeed_inQuotes hs]

theorem WrittenArguments.noFeed {args : List Token} {text : List Char}
    (h : WrittenArguments args text) : '\n' ∉ text := by
  induction h with
  | ending hgaps => exact hgaps.noFeed
  | word hword _ hgaps _ _ ih =>
      obtain ⟨-, -, hparts⟩ := hword
      have hword : '\n' ∉ _ := fun hfeed => absurd (hparts _ hfeed) (by decide)
      simp [hgaps.noFeed, hword, ih]
  | str hs hgaps _ _ ih => simp [hgaps.noFeed, noFeed_inQuotes hs, ih]
  | assigned hs hgaps _ hbefore _ hafter =>
      simp [hgaps.noFeed, hbefore.noFeed, hafter.noFeed, noFeed_inQuotes hs]

theorem WrittenStatement.noFeed {tokens : List Token} {text : List Char}
    (h : WrittenStatement tokens text) : '\n' ∉ text := by
  cases h with
  | property hname hs hvalue => simp [hname.noFeed, hvalue.noFeed hs]
  | rename hmember hs hvalue => simp [hmember.noFeed, hvalue.noFeed hs]
  | command hname hargs => simp [hname.noFeed, hargs.noFeed]

/-- Quoted strings can carry any line of text.  A scanner before the text in quotes, behind `=` or
among arguments, gives the string and stands behind the closing quote, whatever follows.  A
statement that is written with quoted strings is lexed into its tokens, and a scanner finds them. -/
theorem quoted_readBack :
    (∀ (s : String) (gaps rest : List Char) (number : Nat), '\n' ∉ s.toList → IsGaps gaps →
      Scanner.step ⟨gaps ++ (inQuotes s.toList ++ rest), number, .value⟩ =
          .token (.str s) ⟨rest, number, .lineEnd⟩ ∧
        Scanner.step ⟨gaps ++ (inQuotes s.toList ++ rest), number, .argument⟩ =
          .token (.str s) ⟨rest, number, .argument⟩) ∧
      ∀ tokens text, WrittenStatement tokens text →
        Lexed.ofText (String.ofList text) = ⟨[⟨1, tokens⟩], .finished 1⟩ ∧
          Scanner.Scans (.start (String.ofList text))
            (tokens.map (⟨·, 1⟩) ++ [⟨.newline, 1⟩, ⟨.eof, 1⟩]) none := by
  refine ⟨fun s gaps rest number hs hgaps => step_inQuotes hs hgaps number, fun tokens text h => ?_⟩
  have hcut := h.ofChars
  have hlines := linesOf_last h.noFeed
  have hlexed : Lexed.ofText (String.ofList text) = ⟨[⟨1, tokens⟩], .finished 1⟩ := by
    rw [Lexed.ofText, String.toList_ofList, hlines]
    cases h with
    | property | rename | command =>
        rw [Lexed.ofLines_of_tokens hcut]
        rfl
  have hclosed : ClosedComments (String.ofList text).toList := by
    rw [String.toList_ofList, ClosedComments, hlines, List.forall_mem_singleton]
    intro hskipped
    rw [ofChars_of_skipped hskipped] at hcut
    cases h with
    | property | rename | command => cases hcut
  have hscans := scans_ofText hclosed
  rw [hlexed] at hscans
  simpa [Lexed.tokens, Lexed.problem?] using And.intro hlexed hscans

/-- A backslash, a quote, a letter outside of ASCII and a carriage return. -/
theorem quoted_readBack_mixed :
    Scanner.step ⟨" \"\\\\\\\"ü\r\" \n".toList, 3, .argument⟩ =
        .token (.str "\\\"ü\r") ⟨" \n".toList, 3, .argument⟩ ∧
      Lexed.ofText ".name = \"\\\\\\\"ü\r\"" =
        ⟨[⟨1, [.property "name", .str "\\\"ü\r"]⟩], .finished 1⟩ := by
  have hs : '\n' ∉ "\\\"ü\r".toList := by decide
  have hgap : IsGaps [' '] := List.forall_mem_singleton.mpr rfl
  obtain ⟨hstep, hstatement⟩ := quoted_readBack
  constructor
  · exact (hstep "\\\"ü\r" [' '] " \n".toList 3 hs hgap).2
  · have hname : IsName "name" := by decide
    have hvalue : WrittenValue "\\\"ü\r" _ := ⟨hgap, hgap, List.forall_mem_nil _⟩
    exact (hstatement _ _ (.property hname hs hvalue)).1

end IdlModel.Script
