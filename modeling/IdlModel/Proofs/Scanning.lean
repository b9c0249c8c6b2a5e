import IdlModel.Proofs.ScriptLines
import IdlModel.Script.Scanner
import Mathlib.Data.List.TakeWhile

/-!
# Scanning and cutting

A scanner that goes through a text finds what the lines of the text are cut into: `scans_ofText`.

*Parts.*  Where a scanner stands in a line, the text that is left is the rest of the line with
what stands behind the line.  Every part is taken from the rest of the line alone, because it ends
at a line ending: `LineRest.takeName?_eq` and its neighbours.

*Lines.*  From each place in a line a scanner finds what the rest of the line is cut into there.
Then it stands behind the line, or the run has ended with the problem of the line: `Crosses`.

*Comments.*  A comment with a lone carriage return is skipped with its line, but a scanner never
gets over it.  So the texts are those with `ClosedComments`.
-/

namespace IdlModel.Script

/-! ## Line endings -/

/-- The rest of a line, and what stands behind the line. -/
structure LineRest (cs after : List Char) : Prop where
  noFeed : '\n' ∉ cs
  ends : EndsLine cs after

theorem takeString?_suffix {cs s after : List Char} (h : takeString? cs = some (s, after)) :
    after <:+ cs := by
  fun_induction takeString? cs generalizing s after with
  | case1 | case3 => cases h
  | case2 rest =>
      cases h
      exact List.suffix_cons _ _
  | case4 c rest =>
      rename_i ih
      obtain ⟨_, h', he⟩ := Option.map_eq_some_iff.1 h
      cases he
      exact ((ih h').trans (List.suffix_cons c rest)).trans (List.suffix_cons _ _)
  | case5 c rest _ _ _ ih =>
      obtain ⟨_, h', he⟩ := Option.map_eq_some_iff.1 h
      cases he
      exact (ih h').trans (List.suffix_cons c rest)

theorem takeTail_suffix (cs : List Char) : (takeTail cs).2 <:+ cs := by
  rw [takeTail]
  split
  · exact List.suffix_rfl
  · exact List.nil_suffix

/-- Bare text that is more than white space is all there is up to the end of the line. -/
theorem snd_takeTail_of_trimEnd {cs : List Char} (h : Text.trimEnd (takeTail cs).1 ≠ []) :
    (takeTail cs).2 = [] := by
  unfold takeTail at h ⊢
  split at h
  next hreturn => exact absurd rfl h
  next hreturn => rw [if_neg hreturn]

theorem takeLineEnding?_eq_none {cs : List Char} (h : atLineEnd cs = false) :
    takeLineEnding? cs = none := by
  unfold takeLineEnding?
  split
  · cases h
  · cases h
  · rfl

namespace LineRest

variable {cs later after : List Char} {c : Char}

/-- The start of a line can be left out. -/
theorem suffix (h : LineRest cs after) (hlater : later <:+ cs) : LineRest later after where
  noFeed hfeed := h.noFeed (hlater.subset hfeed)
  ends := by
    obtain ⟨p, rfl⟩ := hlater
    cases h.ends with
    | last => exact .last
    | feed hlast =>
        exact .feed fun hcs => hlast (List.mem_getLast?_append_of_mem_getLast? hcs)
    | returnFeed => exact .returnFeed

theorem tail (h : LineRest (c :: cs) after) : LineRest cs after := h.suffix (List.suffix_cons c cs)

theorem ne_feed (h : LineRest (c :: cs) after) : c ≠ '\n' := fun hc =>
  h.noFeed (hc ▸ List.mem_cons_self)

theorem atLineEnd_after (h : LineRest cs after) : atLineEnd after = true := by
  cases h.ends <;> rfl

/-- Before the end of a line there is no line ending, not even at a carriage return. -/
theorem atLineEnd_cons (h : LineRest (c :: cs) after) : atLineEnd (c :: (cs ++ after)) = false := by
  have hc := h.ne_feed
  unfold atLineEnd
  split
  next heq => cases heq
  next heq => exact absurd (List.cons.inj heq).1 hc
  next heq =>
    obtain ⟨rfl, hrest⟩ := List.cons.inj heq
    cases cs with
    | nil =>
        cases h.ends with
        | last => cases hrest
        | feed hlast => exact absurd rfl hlast
        | returnFeed => cases hrest
    | cons d cs => exact absurd (List.cons.inj hrest).1 h.tail.ne_feed
  next => rfl

/-- The characters at the start of a text that are all of a class, and what stands behind them,
are those of the line if no line ending starts with a character of the class. -/
theorem takeWhile_eq {q : Char → Bool} (hfeed : q '\n' = false) (hreturn : q '\r' = false)
    (h : LineRest cs after) :
    (cs ++ after).takeWhile q = cs.takeWhile q ∧
      (cs ++ after).dropWhile q = cs.dropWhile q ++ after := by
  have hafter : ∀ c ∈ after.head?, q c = false := by
    cases h.ends <;> simp [hfeed, hreturn]
  exact span_append hafter cs

theorem dropGaps_eq (h : LineRest cs after) : dropGaps (cs ++ after) = dropGaps cs ++ after :=
  (h.takeWhile_eq rfl rfl).2

theorem dropGaps (h : LineRest cs after) : LineRest (dropGaps cs) after :=
  h.suffix (List.dropWhile_suffix isGap)

theorem takeName?_eq (h : LineRest cs after) :
    takeName? (cs ++ after) = (takeName? cs).map fun (name, rest) => (name, rest ++ after) := by
  cases cs with
  | nil =>
      cases h.ends with
      | last => rfl
      | feed => rfl
      | returnFeed => rfl
  | cons c cs =>
      obtain ⟨htake, hdrop⟩ := h.tail.takeWhile_eq (q := isNamePart) (by decide) (by decide)
      rw [List.cons_append, takeName?, takeName?, htake, hdrop]
      split <;> rfl

theorem takeLine_eq (h : LineRest cs after) :
    takeLine (cs ++ after) = ((takeTail cs).1, (takeTail cs).2 ++ after) := by
  obtain ⟨htake, hdrop⟩ := h.takeWhile_eq (q := isInLine) rfl rfl
  rw [takeLine, htake, hdrop, takeTail]
  by_cases hreturn : '\r' ∈ cs
  · -- the first carriage return of the line is no line ending
    have hrest : atLineEnd (cs.dropWhile isInLine ++ after) = false := by
      have hlater := h.suffix (List.dropWhile_suffix (l := cs) isInLine)
      cases hcs : cs.dropWhile isInLine with
      | nil =>
          have := List.dropWhile_eq_nil_iff.mp hcs _ hreturn
          cases this
      | cons d ds => exact (hcs ▸ hlater).atLineEnd_cons
    simp [hrest, hreturn]
  · have hin : ∀ c ∈ cs, isInLine c = true := fun c hc => by
      have hn : c ≠ '\n' := fun h' => h.noFeed (h' ▸ hc)
      have hr : c ≠ '\r' := fun h' => hreturn (h' ▸ hc)
      simp [isInLine, hn, hr]
    rw [List.takeWhile_eq_self_iff.mpr hin, List.dropWhile_eq_nil_iff.mpr hin, List.nil_append]
    simp [h.atLineEnd_after, hreturn]

/-- No string is closed behind the line that it starts on. -/
theorem takeLineString?_after (h : LineRest cs after) :
    takeLineString? after = none ∧ takeLineString? ('\\' :: after) = none := by
  cases h.ends <;> simp [takeLineString?]

theorem takeLineString?_eq (h : LineRest cs after) :
    takeLineString? (cs ++ after) =
      (takeString? cs).map fun (text, rest) => (text, rest ++ after) := by
  fun_induction takeString? cs with
  | case1 => exact h.takeLineString?_after.1
  | case2 rest => rfl
  | case3 => exact h.takeLineString?_after.2
  | case4 c rest kept ih =>
      rw [List.cons_append, List.cons_append, takeLineString?, ih h.tail.tail, Option.map_map,
        Option.map_map]
      · rfl
      · exact fun hc => h.tail.ne_feed hc
  | case5 c rest hclosed hlast hescape ih =>
      have hquote : c ≠ '"' := hclosed
      have hslash : c ≠ '\\' := by
        rintro rfl
        cases rest with
        | nil => exact hlast rfl rfl
        | cons d ds => exact hescape d ds rfl rfl
      rw [List.cons_append, takeLineString?, ih h.tail, Option.map_map, Option.map_map]
      · rfl
      all_goals simp [h.ne_feed, hquote, hslash]

end LineRest

/-! ## Runs -/

namespace Scanner

variable {s s' next : Scanner} {tokens : List LineToken} {problem : Option (LexProblem × Nat)}

/-- A run depends on the first step and its line only. -/
theorem Scans.congr (hstep : s.step = s'.step) (hline : s.line = s'.line)
    (h : Scans s' tokens problem) : Scans s tokens problem := by
  cases h with
  | silent h later => exact .silent (hstep.trans h) later
  | token h later => exact hline ▸ .token (hstep.trans h) later
  | ended h => exact hline ▸ .ended (hstep.trans h)
  | failed h => exact hline ▸ .failed (hstep.trans h)

/-- A scanner has at most one run. -/
theorem Scans.det {tokens' : List LineToken} {problem' : Option (LexProblem × Nat)}
    (h : Scans s tokens problem) (h' : Scans s tokens' problem') :
    tokens = tokens' ∧ problem = problem' := by
  induction h generalizing tokens' problem' with
  | silent h _ ih =>
      cases h' with
      | silent h' later' =>
          obtain rfl := Scan.silent.inj (h.symm.trans h')
          exact ih later'
      | token h' | ended h' | failed h' => cases h.symm.trans h'
  | token h _ ih =>
      cases h' with
      | token h' later' =>
          obtain ⟨rfl, rfl⟩ := Scan.token.inj (h.symm.trans h')
          obtain ⟨rfl, rfl⟩ := ih later'
          exact ⟨rfl, rfl⟩
      | silent h' | ended h' | failed h' => cases h.symm.trans h'
  | ended h =>
      cases h' with
      | ended => exact ⟨rfl, rfl⟩
      | silent h' | token h' | failed h' => cases h.symm.trans h'
  | failed h =>
      cases h' with
      | failed h' =>
          obtain rfl := Scan.failed.inj (h.symm.trans h')
          exact ⟨rfl, rfl⟩
      | silent h' | token h' | ended h' => cases h.symm.trans h'

/-! ## Lines -/

/-- A scanner finds what the rest of its line is cut into.  Then it goes on at `next`, or the run
ends with the problem of the line. -/
structure Crosses (s : Scanner) (line : LexedLine) (next : Scanner) : Prop where
  goesOn : line.problem = none → ∀ tokens problem, Scans next tokens problem →
    Scans s ((line.tokens ++ [Token.newline]).map (⟨·, s.line⟩) ++ tokens) problem
  stops : ∀ problem, line.problem = some problem →
    Scans s (line.tokens.map (⟨·, s.line⟩)) (some (problem, s.line))

namespace Crosses

variable {line : LexedLine} {problem : LexProblem}

theorem failed (h : s.step = .failed problem) : Crosses s (.failed problem) next where
  goesOn := nofun
  stops := by
    rintro _ ⟨⟩
    exact .failed h

theorem newline (h : s.step = .token .newline next) : Crosses s {} next where
  goesOn _ _ _ later := .token h later
  stops := by
    rintro _ ⟨⟩

theorem silent (hs : Crosses s' line next) (h : s.step = .silent s') (hline : s'.line = s.line) :
    Crosses s line next where
  goesOn hnone tokens problem later := .silent h (hline ▸ hs.goesOn hnone tokens problem later)
  stops problem hproblem := .silent h (hline ▸ hs.stops problem hproblem)

theorem token {token : Token} (hs : Crosses s' line next) (h : s.step = .token token s')
    (hline : s'.line = s.line) : Crosses s (line.cons token) next where
  goesOn hnone tokens problem later := .token h (hline ▸ hs.goesOn hnone tokens problem later)
  stops problem hproblem := .token h (hline ▸ hs.stops problem hproblem)

theorem congr (hs : Crosses s' line next) (hstep : s.step = s'.step) (hline : s.line = s'.line) :
    Crosses s line next where
  goesOn hnone tokens problem later :=
    .congr hstep hline (hline ▸ hs.goesOn hnone tokens problem later)
  stops problem hproblem := .congr hstep hline (hline ▸ hs.stops problem hproblem)

end Crosses

/-- The place behind a line. -/
def behind (number : Nat) (after : List Char) : Scanner :=
  match takeLineEnding? after with
  | some rest => { rest, line := number + 1 }
  | none => { rest := after, line := number }

end Scanner

open Scanner (Crosses Scans behind)

section

variable {cs after : List Char} {number : Nat}

theorem crosses_ending (h : LineRest cs after) :
    Crosses ⟨cs ++ after, number, .lineEnd⟩ (.ending cs) (behind number after) := by
  have hgaps := h.dropGaps_eq
  rw [LexedLine.ending]
  cases hrest : dropGaps cs with
  | nil =>
      rw [hrest, List.nil_append] at hgaps
      have hstep : Scanner.step ⟨cs ++ after, number, .lineEnd⟩ =
          .token .newline (behind number after) := by
        simp only [Scanner.step, hgaps]
        cases h.ends <;> rfl
      exact .newline hstep
  | cons c rest =>
      rw [hrest, List.cons_append] at hgaps
      have hlater : LineRest (c :: rest) after := hrest ▸ h.dropGaps
      have htail := hlater.takeLine_eq
      rw [List.cons_append] at htail
      refine .failed ?_
      simp [Scanner.step, hgaps, takeLineEnding?_eq_none hlater.atLineEnd_cons, htail]

/-- A string of the line. -/
theorem string_eq {s : Scanner} {next : Expected} (h : LineRest cs after) :
    s.string next (cs ++ after) =
      match takeString? cs with
      | some (text, rest) => .token (.str (String.ofList text)) (s.goTo next (rest ++ after))
      | none => .failed .unterminatedString := by
  rw [Scanner.string, h.takeLineString?_eq]
  cases takeString? cs <;> rfl

theorem crosses_assigned (h : LineRest cs after) :
    Crosses ⟨cs ++ after, number, .value⟩ (.assigned cs) (behind number after) := by
  have hgaps := h.dropGaps_eq
  have hlater := h.dropGaps
  rw [LexedLine.assigned]
  split
  next hrest =>
    rw [hrest, List.nil_append] at hgaps
    refine .failed ?_
    simp [Scanner.step, hgaps, h.atLineEnd_after]
  next rest hrest =>
    rw [hrest, List.cons_append] at hgaps
    rw [hrest] at hlater
    have hstep : Scanner.step ⟨cs ++ after, number, .value⟩ =
        Scanner.string ⟨cs ++ after, number, .value⟩ .lineEnd (rest ++ after) := by
      simp [Scanner.step, hgaps, hlater.atLineEnd_cons]
    rw [string_eq hlater.tail] at hstep
    split
    next s later hs =>
      rw [hs] at hstep
      exact (crosses_ending (hlater.tail.suffix (takeString?_suffix hs))).token hstep rfl
    next hs =>
      rw [hs] at hstep
      exact .failed hstep
  next hne hquote =>
    show Crosses _ ((LexedLine.ending (takeTail (dropGaps cs)).2).cons
      (.value (String.ofList (Text.trimEnd (takeTail (dropGaps cs)).1)))) _
    obtain ⟨c, rest, hrest⟩ := List.exists_cons_of_ne_nil hne
    have hc : c ≠ '"' := fun hc => hquote rest (hc ▸ hrest)
    have htail := hlater.takeLine_eq
    rw [hrest] at hgaps hlater htail ⊢
    rw [List.cons_append] at hgaps htail
    refine (crosses_ending (hlater.suffix (takeTail_suffix _))).token ?_ rfl
    simp [Scanner.step, hgaps, hlater.atLineEnd_cons, hc, htail, Scanner.goTo]

/-- Gaps before an argument are dropped. -/
theorem step_argument_congr {later : List Char} (h : dropGaps cs = dropGaps later) :
    Scanner.step ⟨cs, number, .argument⟩ = Scanner.step ⟨later, number, .argument⟩ := by
  simp only [Scanner.step, h]
  rfl

/-- The first character of an argument tells what it is. -/
theorem step_argument_cons {c : Char} (h : LineRest (c :: cs) after) (hgap : ¬ isGap c = true) :
    Scanner.step ⟨c :: cs ++ after, number, .argument⟩ =
      let s : Scanner := ⟨c :: cs ++ after, number, .argument⟩
      if c = '"' then s.string .argument (cs ++ after)
      else if c = '\r' then .failed .carriageReturn
      else s.word (c :: cs ++ after) := by
  have hgaps : dropGaps (c :: (cs ++ after)) = c :: (cs ++ after) := by simp [dropGaps, hgap]
  simp only [Scanner.step, List.cons_append, hgaps, h.atLineEnd_cons, Bool.false_eq_true, if_false]
  split
  next heq =>
    obtain ⟨rfl, rfl⟩ := List.cons.inj heq
    rfl
  next heq =>
    obtain ⟨rfl, -⟩ := List.cons.inj heq
    rfl
  next hquote hreturn =>
    rw [if_neg fun hc => hquote _ (by rw [hc]), if_neg fun hc => hreturn _ (by rw [hc])]

/-- A word of the line. -/
theorem word_eq {s : Scanner} {c : Char} (h : LineRest (c :: cs) after)
    (hc : isWordPart c = true) :
    s.word (c :: cs ++ after) =
      if c :: cs.takeWhile isWordPart = ['='] then
        .token .assign (s.goTo .value (cs.dropWhile isWordPart ++ after))
      else
        .token (.word (String.ofList (c :: cs.takeWhile isWordPart)))
          (s.goTo .argument (cs.dropWhile isWordPart ++ after)) := by
  obtain ⟨htake, hdrop⟩ := h.tail.takeWhile_eq (q := isWordPart) rfl rfl
  simp [Scanner.word, hc, htake, hdrop]

theorem crosses_arguments (h : LineRest cs after) :
    Crosses ⟨cs ++ after, number, .argument⟩ (.arguments cs) (behind number after) := by
  fun_induction LexedLine.arguments cs with
  | case1 =>
      have hgaps : dropGaps after = after := h.dropGaps_eq
      have hstep : Scanner.step ⟨after, number, .argument⟩ = .silent ⟨after, number, .lineEnd⟩ := by
        simp [Scanner.step, hgaps, h.atLineEnd_after, Scanner.goTo]
      exact (crosses_ending h).silent hstep rfl
  | case2 c cs hgap ih =>
      refine (ih h.tail).congr (step_argument_congr ?_) rfl
      simp [dropGaps, hgap]
  | case3 cs s later hs hgap ih =>
      refine (ih (h.tail.suffix (takeString?_suffix hs))).token ?_ rfl
      rw [step_argument_cons h hgap, if_pos rfl, string_eq h.tail, hs]
      rfl
  | case4 cs hs hgap =>
      refine .failed ?_
      rw [step_argument_cons h hgap, if_pos rfl, string_eq h.tail, hs]
  | case5 cs hgap hquote =>
      refine .failed ?_
      rw [step_argument_cons h hgap, if_neg hquote, if_pos rfl]
  | case6 c cs hgap hquote hreturn word later hassign =>
      have hc : isWordPart c = true := by simp [isWordPart, hgap, h.ne_feed, hreturn]
      refine (crosses_assigned (h.tail.suffix (List.dropWhile_suffix _))).token ?_ rfl
      rw [step_argument_cons h hgap, if_neg hquote, if_neg hreturn, word_eq h hc, if_pos hassign]
      rfl
  | case7 c cs hgap hquote hreturn word later hassign ih =>
      have hc : isWordPart c = true := by simp [isWordPart, hgap, h.ne_feed, hreturn]
      refine (ih (h.tail.suffix (List.dropWhile_suffix _))).token ?_ rfl
      rw [step_argument_cons h hgap, if_neg hquote, if_neg hreturn, word_eq h hc, if_neg hassign]
      rfl

theorem takeName?_suffix {rest : List Char} {name : String} (h : takeName? cs = some (name, rest)) :
    rest <:+ cs := by
  obtain ⟨-, rfl⟩ := takeName?_eq_some h
  exact List.suffix_append _ _

/-- A name of the line. -/
theorem crosses_named {expected : Expected} {wanted : Wanted}
    {next : String → List Char → Scan} {line : String → List Char → LexedLine}
    (h : LineRest cs after)
    (hstep : Scanner.step ⟨cs ++ after, number, expected⟩ =
      Scanner.name ⟨cs ++ after, number, expected⟩ wanted next)
    (hline : ∀ name rest, LineRest rest after →
      Scanner.step ⟨cs ++ after, number, expected⟩ = next name (rest ++ after) →
      Crosses ⟨cs ++ after, number, expected⟩ (line name rest) (behind number after)) :
    Crosses ⟨cs ++ after, number, expected⟩ (.named wanted cs line) (behind number after) := by
  rw [Scanner.name, h.takeName?_eq] at hstep
  rw [LexedLine.named]
  cases hname : takeName? cs with
  | some found =>
      rw [hname] at hstep
      exact hline _ _ (h.suffix (takeName?_suffix hname)) hstep
  | none =>
      rw [hname] at hstep
      refine .failed (hstep.trans ?_)
      cases cs with
      | nil => simp [h.atLineEnd_after]
      | cons c cs => simp [h.atLineEnd_cons]

theorem crosses_assignment {expected : Expected} {token : String → Token} {wanted : Wanted}
    (h : LineRest cs after)
    (hstep : Scanner.step ⟨cs ++ after, number, expected⟩ =
      Scanner.target ⟨cs ++ after, number, expected⟩ token wanted) :
    Crosses ⟨cs ++ after, number, expected⟩ (.assignment token wanted cs)
      (behind number after) := by
  refine crosses_named h hstep fun name rest hrest hstep => ?_
  have hgaps := hrest.dropGaps_eq
  have hlater := hrest.dropGaps
  split
  next heq =>
    refine .failed (hstep.trans ?_)
    rw [heq, List.nil_append] at hgaps
    simp [hgaps, h.atLineEnd_after]
  next rest' heq =>
    rw [heq] at hlater hgaps
    refine (crosses_assigned hlater.tail).token (hstep.trans ?_) rfl
    rw [List.cons_append] at hgaps
    simp [hgaps, hlater.atLineEnd_cons, Scanner.goTo]
  next hne hassign =>
    obtain ⟨c, rest', heq⟩ := List.exists_cons_of_ne_nil hne
    have hc : c ≠ '=' := fun hc => hassign rest' (hc ▸ heq)
    rw [heq] at hlater hgaps
    rw [List.cons_append] at hgaps
    refine .failed (hstep.trans ?_)
    simp [hgaps, hlater.atLineEnd_cons, hc]

theorem crosses_commandLine (h : LineRest cs after) :
    Crosses ⟨cs ++ after, number, .command⟩ (.commandLine cs) (behind number after) :=
  crosses_named h rfl fun _ _ hrest hstep => (crosses_arguments hrest).token hstep rfl

theorem crosses_header {marker : String} {token : String → Token} {before : List Char}
    (h : LineRest cs after)
    (hstep : Scanner.step ⟨before, number, .line⟩ =
      Scanner.header ⟨before, number, .line⟩ marker token (cs ++ after)) :
    Crosses ⟨before, number, .line⟩ (.header marker token cs) (behind number after) := by
  rw [Scanner.header, h.dropGaps_eq, h.dropGaps.takeLine_eq] at hstep
  rw [LexedLine.header]
  split
  next htrim =>
    refine .failed (hstep.trans ?_)
    simp [htrim]
  next hne =>
    have hnone := snd_takeTail_of_trimEnd hne
    have hends : LineRest [] after := h.suffix List.nil_suffix
    refine (crosses_ending hends).token (hstep.trans ?_) rfl
    simp [hnone, Scanner.goTo]

/-- A line that is not skipped. -/
theorem crosses_ofChars (h : LineRest cs after) (hstatement : IsStatement cs) :
    Crosses ⟨cs ++ after, number, .line⟩ (.ofChars cs) (behind number after) := by
  unfold LexedLine.ofChars
  split
  next => obtain ⟨_, _, ⟨⟩, _⟩ := hstatement
  next rest => exact crosses_header h.tail.tail rfl
  next rest hmark =>
    have hnext : ∀ later, rest ++ after ≠ '#' :: later := by
      rintro later heq
      cases rest with
      | nil => cases h.ends <;> cases heq
      | cons d ds => exact hmark ds (by rw [(List.cons.inj heq).1])
    refine crosses_header h.tail ?_
    rw [Scanner.step, List.cons_append, Scanner.startLine]
    exact fun later heq => hnext later heq
  next rest => exact (crosses_assignment h.tail rfl).silent rfl rfl
  next rest => exact (crosses_commandLine h.tail).silent rfl rfl
  next c rest _ hhash hdot hat =>
    have hstep : Scanner.step ⟨c :: rest ++ after, number, .line⟩ =
        if c = '\r' then .failed .carriageReturn
        else if isGap c then .silent ⟨c :: rest ++ after, number, .comment⟩
        else if isNameStart c then .silent ⟨c :: rest ++ after, number, .member⟩
        else .failed (.unexpectedCharacter c) := by
      have hending := takeLineEnding?_eq_none h.atLineEnd_cons
      rw [Scanner.step, List.cons_append, Scanner.startLine]
      · simp [hending, h.ne_feed, Scanner.goTo]
      · exact fun _ hc _ => hhash hc
      · exact hhash
      · exact hdot
      · exact hat
    split
    next hreturn => exact .failed (hstep.trans (if_pos hreturn))
    next hreturn =>
      obtain ⟨_, _, ⟨⟩, hgap⟩ := hstatement
      rw [if_neg hreturn, hgap] at hstep
      rw [hgap]
      split
      next hgap => cases hgap
      next =>
        split
        next hname =>
          have hmember : Crosses ⟨c :: rest ++ after, number, .member⟩
              (.assignment .rename .memberName (c :: rest)) (behind number after) :=
            crosses_assignment h rfl
          exact hmember.silent (hstep.trans (by simp [hname])) rfl
        next hname => exact .failed (hstep.trans (by simp [hname]))

/-- A line that is skipped and not empty starts with a gap. -/
theorem eq_of_skipped {c : Char} (h : ¬ IsStatement (c :: cs)) : c = ' ' ∨ c = '\t' := by
  have hgap : isGap c = true := by
    by_contra hgap
    exact h ⟨c, cs, rfl, by simpa using hgap⟩
  simpa [isGap] using hgap

theorem ofChars_of_skipped (h : ¬ IsStatement cs) : LexedLine.ofChars cs = {} := by
  cases cs with
  | nil => rfl
  | cons c rest =>
      obtain rfl | rfl := eq_of_skipped h
      · rfl
      · rfl

/-- A line that is skipped, without a lone carriage return in it. -/
theorem scans_skipped {tokens : List LineToken} {problem : Option (LexProblem × Nat)}
    (h : LineRest cs after) (hskipped : ¬ IsStatement cs) (hclosed : '\r' ∉ cs)
    (later : Scans (behind number after) tokens problem) :
    Scans ⟨cs ++ after, number, .line⟩ tokens problem := by
  cases cs with
  | nil =>
      cases h.ends with
      | last => exact later
      | feed => exact .silent rfl later
      | returnFeed => exact .silent rfl later
  | cons c rest =>
      have hcomment : Scanner.step ⟨c :: rest ++ after, number, .line⟩ =
          .silent ⟨c :: rest ++ after, number, .comment⟩ := by
        obtain rfl | rfl := eq_of_skipped hskipped <;> rfl
      have htake : takeLine (c :: rest ++ after) = (c :: rest, after) := by
        rw [h.takeLine_eq, takeTail, if_neg (by simpa using hclosed), List.nil_append]
      have hend : Scanner.step ⟨c :: rest ++ after, number, .comment⟩ =
          .silent (behind number after) := by
        simp only [Scanner.step, htake]
        cases h.ends <;> rfl
      exact .silent hcomment (.silent hend later)

/-- A line and the lines behind it. -/
theorem scans_line {before : Nat} {lines : List (List Char)} (h : LineRest cs after)
    (hclosed : ¬ IsStatement cs → '\r' ∉ cs)
    (hlater : Scans (behind (before + 1) after) (Lexed.ofLines (before + 1) lines).tokens
      (Lexed.ofLines (before + 1) lines).problem?) :
    Scans ⟨cs ++ after, before + 1, .line⟩ (Lexed.ofLines before (cs :: lines)).tokens
      (Lexed.ofLines before (cs :: lines)).problem? := by
  by_cases hstatement : IsStatement cs
  case neg =>
    rw [Lexed.ofLines_of_skipped (ofChars_of_skipped hstatement)]
    exact scans_skipped h hstatement (hclosed hstatement) hlater
  have hcrosses :
      Crosses ⟨cs ++ after, before + 1, .line⟩ (.ofChars cs) (behind (before + 1) after) :=
    crosses_ofChars h hstatement
  match hcut : LexedLine.ofChars cs with
  | ⟨tokens, some problem⟩ =>
      rw [Lexed.ofLines_of_problem hcut]
      exact (hcut ▸ hcrosses).stops problem rfl
  | ⟨[], none⟩ =>
      have hform := (cut_ofChars h.noFeed).form
      rw [hcut] at hform
      obtain ⟨-, ⟨⟩⟩ | ⟨hskipped, -⟩ := hform rfl
      exact absurd hstatement hskipped
  | ⟨token :: tokens, none⟩ =>
      rw [Lexed.ofLines_of_tokens hcut]
      have hgoes := (hcut ▸ hcrosses).goesOn rfl _ _ hlater
      simpa [Lexed.tokens, Lexed.problem?] using hgoes

end

/-! ## Texts -/

/-- No comment of a text has a carriage return that starts no line ending. -/
def ClosedComments (text : List Char) : Prop :=
  ∀ line ∈ linesOf text, ¬ IsStatement line → '\r' ∉ line

instance (line : List Char) : Decidable (IsStatement line) :=
  match line with
  | [] => .isFalse nofun
  | c :: cs =>
      decidable_of_iff (isGap c = false)
        ⟨fun h => ⟨c, cs, rfl, h⟩, fun ⟨_, _, heq, h⟩ => (List.cons.inj heq).1 ▸ h⟩

instance (text : List Char) : Decidable (ClosedComments text) :=
  inferInstanceAs (Decidable (∀ line ∈ linesOf text, ¬ IsStatement line → '\r' ∉ line))

/-- The first line of a text, and what stands behind it. -/
theorem exists_lineRest {p : List Char} (rest : List Char) (hp : '\n' ∉ p) :
    ∃ after, p ++ '\n' :: rest = dropReturn p ++ after ∧ LineRest (dropReturn p) after ∧
      takeLineEnding? after = some rest := by
  rw [dropReturn]
  split
  next h =>
    have hreturn := List.dropLast_append_getLast? _ h
    refine ⟨'\r' :: '\n' :: rest, ?_, ⟨fun hfeed => hp (List.dropLast_subset p hfeed), .returnFeed⟩,
      rfl⟩
    rw [List.append_cons p.dropLast, hreturn]
  next h => exact ⟨'\n' :: rest, rfl, ⟨hp, .feed h⟩, rfl⟩

theorem scans_ofLines {text : List Char} {before : Nat} (h : ClosedComments text) :
    Scans ⟨text, before + 1, .line⟩ (Lexed.ofLines before (linesOf text)).tokens
      (Lexed.ofLines before (linesOf text)).problem? := by
  induction text using text_induction generalizing before with
  | last p hp =>
      rw [ClosedComments, linesOf_last hp, List.forall_mem_singleton] at h
      rw [linesOf_last hp]
      have hlater : Scans (behind (before + 1) []) (Lexed.ofLines (before + 1) []).tokens
          (Lexed.ofLines (before + 1) []).problem? := .ended rfl
      have hline := scans_line ⟨hp, .last⟩ h hlater
      rwa [List.append_nil] at hline
  | line p rest hp ih =>
      rw [ClosedComments, linesOf_line hp, List.forall_mem_cons] at h
      obtain ⟨after, htext, hrest, hafter⟩ := exists_lineRest rest hp
      have hlater : Scans (behind (before + 1) after)
          (Lexed.ofLines (before + 1) (linesOf rest)).tokens
          (Lexed.ofLines (before + 1) (linesOf rest)).problem? := by
        rw [behind, hafter]
        exact ih h.2
      rw [linesOf_line hp, htext]
      exact scans_line hrest h.1 hlater

/-- A scanner finds the tokens and the problem that the lines of a text are cut into, and its run
ends there. -/
theorem scans_ofText {text : String} (h : ClosedComments text.toList) :
    Scans (.start text) (Lexed.ofText text).tokens (Lexed.ofText text).problem? :=
  scans_ofLines h

theorem scans_iff {text : String} (h : ClosedComments text.toList) {tokens : List LineToken}
    {problem : Option (LexProblem × Nat)} :
    Scans (.start text) tokens problem ↔
      tokens = (Lexed.ofText text).tokens ∧ problem = (Lexed.ofText text).problem? := by
  constructor
  · exact fun hscans => hscans.det (scans_ofText h)
  · rintro ⟨rfl, rfl⟩
    exact scans_ofText h

end IdlModel.Script
