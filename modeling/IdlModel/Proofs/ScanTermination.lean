import IdlModel.Proofs.Scanning
import IdlModel.Script.Iteration
import Mathlib.Logic.Relation

/-!
# Scanning ends

A scanner that is asked for one token after the other is done at some time, and never searches
without end: `iteration_ends`.

*Steps.*  A step within a line takes some of the text, or expects a part that ranks lower.  Between
the parts that take nothing, an argument and a value rank above the end of the line, and the end of
a line above the start of one: `Expected.rank`.

*Comments.*  The start of a line and a comment could alternate for ever.  They do not if the comment
can be left, so a scanner has only comments without lone carriage returns before it: `IsClear`.
Each step keeps this so (`Shift.isClear`).

*Weight.*  Four times the length of the text that is left, and the rank of the expected part, make a
number that every step lowers: `Shift.weight_lt`.

A comment that has a lone carriage return is never left: `not_finds_of_openComment`.
-/

namespace IdlModel.Script

/-! ## Parts of lines -/

/-- A part of the line at the start of a text has been taken. -/
def PartTaken (cs rest : List Char) : Prop := ∃ part, part ++ rest = cs ∧ '\n' ∉ part

section

variable {cs rest later : List Char}

namespace PartTaken

theorem refl (cs : List Char) : PartTaken cs cs := ⟨[], rfl, List.not_mem_nil⟩

theorem trans (h : PartTaken cs rest) (h' : PartTaken rest later) : PartTaken cs later := by
  obtain ⟨part, rfl, hpart⟩ := h
  obtain ⟨part', rfl, hpart'⟩ := h'
  exact ⟨part ++ part', List.append_assoc .., by simp [hpart, hpart']⟩

theorem cons {c : Char} (hc : c ≠ '\n') (cs : List Char) : PartTaken (c :: cs) cs :=
  ⟨[c], rfl, by simpa using Ne.symm hc⟩

theorem length_le (h : PartTaken cs rest) : rest.length ≤ cs.length := by
  obtain ⟨part, rfl, -⟩ := h
  simp

theorem dropWhile {q : Char → Bool} (hq : q '\n' = false) (cs : List Char) :
    PartTaken cs (cs.dropWhile q) := by
  refine ⟨cs.takeWhile q, List.takeWhile_append_dropWhile, fun hfeed => ?_⟩
  have := List.mem_takeWhile_imp hfeed
  rw [hq] at this
  cases this

/-- The lines behind the line stay the same. -/
theorem tail_linesOf (h : PartTaken cs rest) : (linesOf cs).tail = (linesOf rest).tail := by
  obtain ⟨part, rfl, hpart⟩ := h
  induction rest using text_induction with
  | last p hp =>
      rw [linesOf_last hp, linesOf_last (by simp [hpart, hp]), List.tail_cons, List.tail_cons]
  | line p rest hp _ =>
      rw [← List.append_assoc, linesOf_line hp, linesOf_line (by simp [hpart, hp]),
        List.tail_cons, List.tail_cons]

end PartTaken

theorem partTaken_dropGaps (cs : List Char) : PartTaken cs (dropGaps cs) :=
  .dropWhile rfl cs

theorem partTaken_takeLine (cs : List Char) : PartTaken cs (takeLine cs).2 := by
  rw [takeLine]
  split
  next => exact .dropWhile rfl cs
  next => exact .refl cs

theorem partTaken_takeName? {name : String} (h : takeName? cs = some (name, rest)) :
    PartTaken cs rest ∧ rest.length < cs.length := by
  cases cs with
  | nil => cases h
  | cons c cs =>
      rw [takeName?] at h
      split at h
      next hc =>
        cases h
        have hfeed : c ≠ '\n' := by
          rintro rfl
          cases hc
        have hrest : PartTaken cs (cs.dropWhile isNamePart) := .dropWhile (by decide) cs
        exact ⟨(PartTaken.cons hfeed cs).trans hrest, Nat.lt_succ_of_le hrest.length_le⟩
      next => cases h

theorem partTaken_takeLineString? {s : List Char} (h : takeLineString? cs = some (s, rest)) :
    PartTaken cs rest := by
  fun_induction takeLineString? cs generalizing s rest with
  | case1 | case2 | case3 | case4 => cases h
  | case5 rest =>
      cases h
      exact .cons (by decide) _
  | case6 c behind hfeed =>
      rename_i ih
      obtain ⟨_, hlater, heq⟩ := Option.map_eq_some_iff.mp h
      cases heq
      exact ((PartTaken.cons (by decide) _).trans (.cons hfeed behind)).trans (ih hlater)
  | case7 c behind hfeed _ _ _ _ ih =>
      obtain ⟨_, hlater, heq⟩ := Option.map_eq_some_iff.mp h
      cases heq
      exact (PartTaken.cons hfeed behind).trans (ih hlater)

theorem length_takeLineEnding? (h : takeLineEnding? cs = some rest) :
    rest.length < cs.length := by
  unfold takeLineEnding? at h
  split at h
  next =>
    cases h
    exact Nat.lt_succ_self _
  next =>
    cases h
    exact Nat.lt_succ_of_lt (Nat.lt_succ_self _)
  next => cases h

/-- Behind a line ending the next line starts. -/
theorem tail_linesOf_of_takeLineEnding? (h : takeLineEnding? cs = some rest) :
    (linesOf cs).tail = linesOf rest := by
  unfold takeLineEnding? at h
  split at h
  next =>
    cases h
    exact congrArg List.tail (linesOf_line (p := []) List.not_mem_nil)
  next =>
    cases h
    exact congrArg List.tail (linesOf_line (p := ['\r']) (by decide))
  next => cases h

end

/-! ## Steps -/

/-- The rank of a part.  Without taking any text a scanner only comes to parts of lower rank. -/
def Expected.rank : Expected → Nat
  | .comment | .property | .member | .command => 0
  | .line => 1
  | .lineEnd => 2
  | .argument | .value => 3

theorem Expected.rank_le (e : Expected) : e.rank ≤ 3 := by
  cases e <;> decide

/-- Whether a part belongs to a line that is no comment. -/
def Expected.inStatement : Expected → Bool
  | .line | .comment => false
  | _ => true

namespace Scanner

/-- What a step does to a scanner. -/
inductive Shift (s : Scanner) : Scanner → Prop
  /-- It goes on in its line, behind some text or at a part of lower rank. -/
  | within {expected : Expected} {rest : List Char} (hpart : PartTaken s.rest rest)
      (hin : expected.inStatement = true)
      (hless : rest.length < s.rest.length ∨ expected.rank < s.expected.rank) :
      Shift s (s.goTo expected rest)
  /-- It goes behind its line. -/
  | behind {after rest : List Char} (hpart : PartTaken s.rest after)
      (hend : takeLineEnding? after = some rest) : Shift s (s.nextLine rest)
  /-- It meets a comment. -/
  | comment {c : Char} {cs : List Char} (hline : s.expected = .line) (hrest : s.rest = c :: cs)
      (hgap : isGap c = true) : Shift s (s.goTo .comment s.rest)
  /-- It does not go behind a comment. -/
  | stay (hcomment : s.expected = .comment) (hend : takeLineEnding? (takeLine s.rest).2 = none) :
      Shift s (s.goTo .line (takeLine s.rest).2)
  /-- It ends the last line. -/
  | last (hend : s.expected = .lineEnd) : Shift s (s.goTo .line [])

end Scanner

/-- What a step gives is not the end of the script, and it shifts the scanner. -/
def Scan.Shifts (s : Scanner) : Scan → Prop
  | .silent next => s.Shift next
  | .token t next => t ≠ .eof ∧ s.Shift next
  | .ended | .failed _ => True

namespace Scanner

variable {s next : Scanner} {rest : List Char}

/-- Behind some text a scanner may take more of the line, or none. -/
theorem Shift.taken {later : List Char} {expected : Expected} (hpart : PartTaken s.rest rest)
    (hless : rest.length < s.rest.length) (hlater : PartTaken rest later)
    (hin : expected.inStatement = true) : Shift s (s.goTo expected later) :=
  .within (hpart.trans hlater) hin (.inl (Nat.lt_of_le_of_lt hlater.length_le hless))

theorem header_shifts {marker : String} {token : String → Token} (hpart : PartTaken s.rest rest)
    (hless : rest.length < s.rest.length) (htoken : ∀ name, token name ≠ .eof) :
    (s.header marker token rest).Shifts s := by
  have hlater : PartTaken rest (takeLine (dropGaps rest)).2 :=
    (partTaken_dropGaps rest).trans (partTaken_takeLine _)
  rw [header]
  split
  next text after htake =>
    rw [htake] at hlater
    split
    next => trivial
    next => exact ⟨htoken _, .taken hpart hless hlater rfl⟩

theorem target_shifts {token : String → Token} {wanted : Wanted}
    (htoken : ∀ name, token name ≠ .eof) : (s.target token wanted).Shifts s := by
  rw [target, name]
  split
  next name rest hname =>
    obtain ⟨hpart, hless⟩ := partTaken_takeName? hname
    have hgaps := partTaken_dropGaps rest
    dsimp only
    split
    next => trivial
    next =>
      split
      next later hassign =>
        have hlater : PartTaken rest later := hgaps.trans (hassign ▸ .cons (by decide) later)
        exact ⟨htoken name, .taken hpart hless hlater rfl⟩
      next => trivial
  next => trivial

theorem string_shifts {expected : Expected} (hquote : dropGaps s.rest = '"' :: rest)
    (hin : expected.inStatement = true) : (s.string expected rest).Shifts s := by
  have hgaps := partTaken_dropGaps s.rest
  have hpart : PartTaken s.rest rest := hgaps.trans (hquote ▸ .cons (by decide) rest)
  have hless : rest.length < s.rest.length := by
    have hle := hgaps.length_le
    rw [hquote, List.length_cons] at hle
    exact hle
  rw [string]
  split
  next text after htake =>
    exact ⟨by simp, .taken hpart hless (partTaken_takeLineString? htake) hin⟩
  next => trivial

theorem word_shifts (hpart : PartTaken s.rest rest) : (s.word rest).Shifts s := by
  have hlater : PartTaken rest (rest.dropWhile isWordPart) := .dropWhile (by decide) rest
  have hlength : (rest.takeWhile isWordPart).length + (rest.dropWhile isWordPart).length =
      rest.length := by
    rw [← List.length_append, List.takeWhile_append_dropWhile]
  have hle := hpart.length_le
  rw [word]
  split
  next => trivial
  next htext =>
    have htaken := List.length_pos_of_ne_nil htext
    have hless : (rest.dropWhile isWordPart).length < s.rest.length := by omega
    split
    next => exact ⟨by simp, .within (hpart.trans hlater) rfl (.inl hless)⟩
    next => exact ⟨by simp, .within (hpart.trans hlater) rfl (.inl hless)⟩

theorem startLine_shifts (hline : s.expected = .line) : (s.startLine s.rest).Shifts s := by
  rw [startLine.eq_def]
  split
  next => trivial
  next rest hrest =>
    have hpart : PartTaken s.rest rest :=
      hrest ▸ (PartTaken.cons (by decide) _).trans (.cons (by decide) rest)
    have hless : rest.length < s.rest.length := by
      simp only [hrest, List.length_cons]
      omega
    exact header_shifts hpart hless fun _ => by simp
  next rest _ hrest =>
    exact header_shifts (hrest ▸ .cons (by decide) rest) (by simp [hrest]) fun _ => by simp
  next rest hrest =>
    exact .within (hrest ▸ .cons (by decide) rest) rfl (.inl (by simp [hrest]))
  next rest hrest =>
    exact .within (hrest ▸ .cons (by decide) rest) rfl (.inl (by simp [hrest]))
  next c rest _ _ _ _ hrest =>
    rw [← hrest]
    split
    next =>
      split
      next rest hend => exact .behind (.refl _) hend
      next => trivial
    next =>
      split
      next hgap => exact .comment hline hrest hgap
      next =>
        split
        next => exact .within (.refl _) rfl (.inr (by rw [hline]; decide))
        next => trivial

theorem step_shifts (s : Scanner) : s.step.Shifts s := by
  rw [step]
  split
  next hline => exact startLine_shifts hline
  next hcomment =>
    dsimp only
    split
    next rest hend => exact .behind (partTaken_takeLine s.rest) hend
    next hend => exact .stay hcomment hend
  next => exact target_shifts fun _ => by simp
  next => exact target_shifts fun _ => by simp
  next =>
    rw [name]
    split
    next name rest hname =>
      obtain ⟨hpart, hless⟩ := partTaken_takeName? hname
      exact ⟨by simp, .within hpart rfl (.inl hless)⟩
    next => trivial
  next hargument =>
    have hgaps := partTaken_dropGaps s.rest
    dsimp only
    split
    next => exact .within hgaps rfl (.inr (by rw [hargument]; decide))
    next =>
      split
      next rest hquote => exact string_shifts hquote rfl
      next => trivial
      next => exact word_shifts hgaps
  next hvalue =>
    have hgaps := partTaken_dropGaps s.rest
    dsimp only
    split
    next => trivial
    next =>
      split
      next rest hquote => exact string_shifts hquote rfl
      next =>
        -- bare text may be empty, but the end of the line ranks lower than a value
        have hlater := hgaps.trans (partTaken_takeLine (dropGaps s.rest))
        exact ⟨by simp, .within hlater rfl (.inr (by rw [hvalue]; decide))⟩
  next hlineEnd =>
    dsimp only
    split
    next => exact ⟨by simp, .last hlineEnd⟩
    next =>
      split
      next rest hend => exact ⟨by simp, .behind (partTaken_dropGaps s.rest) hend⟩
      next => trivial

end Scanner

/-! ## Comments -/

/-- A text is a line and what stands behind it. -/
theorem exists_firstLine (cs : List Char) :
    ∃ line after, cs = line ++ after ∧ LineRest line after ∧ line ∈ linesOf cs ∧
      (takeLineEnding? after = none → after = []) := by
  induction cs using text_induction with
  | last p hp =>
      refine ⟨p, [], (List.append_nil p).symm, ⟨hp, .last⟩, ?_, fun _ => rfl⟩
      rw [linesOf_last hp, List.mem_singleton]
  | line p rest hp _ =>
      obtain ⟨after, htext, hline, hafter⟩ := exists_lineRest rest hp
      refine ⟨dropReturn p, after, htext, hline, ?_, fun hnone => ?_⟩
      · rw [linesOf_line hp]
        exact List.mem_cons_self
      · rw [hafter] at hnone
        cases hnone

/-- A comment without a lone carriage return that does not end with a line ending is the end of the
text. -/
theorem takeLine_of_comment {c : Char} {cs : List Char} (hclosed : ClosedComments (c :: cs))
    (hgap : isGap c = true) (hend : takeLineEnding? (takeLine (c :: cs)).2 = none) :
    (takeLine (c :: cs)).2 = [] := by
  obtain ⟨line, after, htext, hline, hmem, hlast⟩ := exists_firstLine (c :: cs)
  have hskipped : ¬ IsStatement line := by
    rintro ⟨d, rest, rfl, hd⟩
    obtain rfl := (List.cons.inj htext).1
    rw [hgap] at hd
    cases hd
  have hreturn := hclosed line hmem hskipped
  have htake : takeLine (c :: cs) = (line, after) := by
    rw [htext, hline.takeLine_eq, takeTail, if_neg (by simpa using hreturn), List.nil_append]
  rw [htake] at hend ⊢
  exact hlast hend

theorem closedComments_nil : ClosedComments [] := by decide

namespace Scanner

variable {s next : Scanner}

/-- The comments before a scanner have no lone carriage returns. -/
structure IsClear (s : Scanner) : Prop where
  /-- Those behind its line. -/
  later : ∀ line ∈ (linesOf s.rest).tail, ¬ IsStatement line → '\r' ∉ line
  /-- The comment that it stands before. -/
  first : s.expected.inStatement = false → ClosedComments s.rest
  /-- A comment starts with a gap. -/
  gap : s.expected = .comment → ∃ c cs, s.rest = c :: cs ∧ isGap c = true

theorem isClear_of_closed {rest : List Char} {line : Nat} (h : ClosedComments rest) :
    IsClear ⟨rest, line, .line⟩ where
  later _ hmem := h _ (List.mem_of_mem_tail hmem)
  first _ := h
  gap := nofun

theorem IsClear.rest_of_stay (hs : s.IsClear) (hcomment : s.expected = .comment)
    (hend : takeLineEnding? (takeLine s.rest).2 = none) :
    (takeLine s.rest).2 = [] ∧ 0 < s.rest.length := by
  have hclosed := hs.first (by rw [hcomment]; rfl)
  obtain ⟨c, cs, hrest, hgap⟩ := hs.gap hcomment
  rw [hrest] at hclosed hend ⊢
  exact ⟨takeLine_of_comment hclosed hgap hend, Nat.succ_pos _⟩

namespace Shift

/-- The comments before a scanner stay free of lone carriage returns. -/
theorem isClear (h : Shift s next) (hs : s.IsClear) : next.IsClear := by
  cases h with
  | @within expected rest hpart hin _ =>
      refine ⟨hpart.tail_linesOf ▸ hs.later, fun hout => ?_, ?_⟩
      · exact absurd (hin.symm.trans hout) (by decide)
      · rintro rfl
        cases hin
  | behind hpart hend =>
      refine isClear_of_closed fun line hmem => hs.later line ?_
      rwa [hpart.tail_linesOf, tail_linesOf_of_takeLineEnding? hend]
  | @comment c cs hline hrest hgap =>
      exact ⟨hs.later, fun _ => hs.first (by rw [hline]; rfl), fun _ => ⟨c, cs, hrest, hgap⟩⟩
  | stay hcomment hend =>
      rw [(hs.rest_of_stay hcomment hend).1]
      exact isClear_of_closed closedComments_nil
  | last => exact isClear_of_closed closedComments_nil

end Shift

/-! ## Weight -/

/-- What is left of the text counts more than the part that is expected. -/
def weight (s : Scanner) : Nat := 4 * s.rest.length + s.expected.rank

/-- Every step lowers the weight. -/
theorem Shift.weight_lt (h : Shift s next) (hs : s.IsClear) : next.weight < s.weight := by
  have hrank := next.expected.rank_le
  simp only [weight]
  cases h with
  | @within expected rest hpart _ hless =>
      have hle := hpart.length_le
      simp only [goTo] at hrank ⊢
      omega
  | behind hpart hend =>
      have hle := hpart.length_le
      have hlt := length_takeLineEnding? hend
      simp only [nextLine] at hrank ⊢
      omega
  | comment hline =>
      simp [goTo, hline, Expected.rank]
  | stay hcomment hend =>
      obtain ⟨hnil, hpos⟩ := hs.rest_of_stay hcomment hend
      simp only [goTo, hnil, List.length_nil, Expected.rank]
      omega
  | last hend =>
      simp only [goTo, hend, List.length_nil, Expected.rank]
      omega

/-! ## Runs -/

theorem Moves.shift (h : Moves s next) : Shift s next := by
  have hshift := step_shifts s
  obtain h | ⟨token, h⟩ := h
  · rw [Silent] at h
    rw [h] at hshift
    exact hshift
  · rw [h] at hshift
    exact hshift.2

theorem isClear_of_reached (h : Relation.ReflTransGen Moves s next) (hs : s.IsClear) :
    next.IsClear := by
  induction h with
  | refl => exact hs
  | tail _ hmove ih => exact hmove.shift.isClear ih

theorem weight_lt_of_transGen (h : Relation.TransGen Silent s next) (hs : s.IsClear) :
    next.IsClear ∧ next.weight < s.weight := by
  induction h with
  | single hstep =>
      have hshift := Moves.shift (.inl hstep)
      exact ⟨hshift.isClear hs, hshift.weight_lt hs⟩
  | tail _ hstep ih =>
      obtain ⟨hclear, hlt⟩ := ih
      have hshift := Moves.shift (.inl hstep)
      exact ⟨hshift.isClear hclear, Nat.lt_trans (hshift.weight_lt hclear) hlt⟩

/-- Every run ends, by induction on the weight. -/
theorem IsClear.exists_scans (hs : s.IsClear) : ∃ tokens problem, Scans s tokens problem := by
  induction hn : s.weight using Nat.strong_induction_on generalizing s with
  | _ n ih =>
      subst hn
      have hlater : ∀ {next}, Moves s next → ∃ tokens problem, Scans next tokens problem :=
        fun hmove => ih _ (hmove.shift.weight_lt hs) (hmove.shift.isClear hs) rfl
      cases hstep : s.step with
      | silent next =>
          obtain ⟨tokens, problem, hscans⟩ := hlater (.inl hstep)
          exact ⟨tokens, problem, .silent hstep hscans⟩
      | token token next =>
          obtain ⟨tokens, problem, hscans⟩ := hlater (.inr ⟨token, hstep⟩)
          exact ⟨_, problem, .token hstep hscans⟩
      | ended => exact ⟨_, _, .ended hstep⟩
      | failed problem => exact ⟨_, _, .failed hstep⟩

variable {tokens : List LineToken} {problem : Option (LexProblem × Nat)}
  {found later : List Finding} {after after' : Option Scanner}

/-- A run that ends gives something first. -/
theorem Scans.finds (h : Scans s tokens problem) : ∃ found after, Finds s found after := by
  induction h with
  | silent h _ ih =>
      obtain ⟨found, after, hfinds⟩ := ih
      exact ⟨found, after, .silent h hfinds⟩
  | token h => exact ⟨_, _, .token h⟩
  | ended h => exact ⟨_, _, .ended h⟩
  | failed h => exact ⟨_, _, .failed h⟩

theorem Iterates.silent (hstep : s.step = .silent next) (h : Iterates (some next) found) :
    Iterates (some s) found := by
  cases h with
  | next h rest => exact .next (.silent hstep h) rest

/-- A run that ends gives its tokens and its problem, and then the scanner is done. -/
theorem Scans.iterates (h : Scans s tokens problem) :
    Iterates (some s) (findings tokens problem) := by
  induction h with
  | silent h _ ih => exact ih.silent h
  | token h _ ih => exact .next (.token h) ih
  | ended h => exact .next (.ended h) .done
  | failed h => exact .next (.failed h) .done

/-- The last thing that is given is the end of the script or a problem, and nothing before it is. -/
theorem Scans.exists_last (h : Scans s tokens problem) :
    ∃ before last, findings tokens problem = before ++ [last] ∧ last.isLast = true ∧
      ∀ f ∈ before, f.isLast = false := by
  induction h with
  | silent _ _ ih => exact ih
  | @token s _ token _ _ h _ ih =>
      obtain ⟨before, last, heq, hlast, hbefore⟩ := ih
      have htoken : token ≠ .eof := by
        have hshift := step_shifts s
        rw [h] at hshift
        exact hshift.1
      refine ⟨.token ⟨token, s.line⟩ :: before, last, congrArg _ heq, hlast, ?_⟩
      exact List.forall_mem_cons.mpr ⟨beq_eq_false_iff_ne.mpr htoken, hbefore⟩
  | ended => exact ⟨[], _, rfl, rfl, nofun⟩
  | failed => exact ⟨[], _, rfl, rfl, nofun⟩

theorem Finds.det {f f' : Finding} (h : Finds s f after) (h' : Finds s f' after') :
    f = f' ∧ after = after' := by
  induction h with
  | silent h _ ih =>
      cases h' with
      | silent h' later' =>
          obtain rfl := Scan.silent.inj (h.symm.trans h')
          exact ih later'
      | token h' | ended h' | failed h' => cases h.symm.trans h'
  | token h =>
      cases h' with
      | token h' =>
          obtain ⟨rfl, rfl⟩ := Scan.token.inj (h.symm.trans h')
          exact ⟨rfl, rfl⟩
      | silent h' | ended h' | failed h' => cases h.symm.trans h'
  | ended h =>
      cases h' with
      | ended => exact ⟨rfl, rfl⟩
      | silent h' | token h' | failed h' => cases h.symm.trans h'
  | failed h =>
      cases h' with
      | failed h' =>
          obtain rfl := Scan.failed.inj (h.symm.trans h')
          exact ⟨rfl, rfl⟩
      | silent h' | token h' | ended h' => cases h.symm.trans h'

theorem Iterates.det (h : Iterates after found) (h' : Iterates after later) : found = later := by
  induction h generalizing later with
  | done =>
      cases h'
      rfl
  | next h _ ih =>
      cases h' with
      | next h' rest' =>
          obtain ⟨rfl, rfl⟩ := h.det h'
          rw [ih rest']

end Scanner

open Scanner

/-- Lexing is always done at some time.  Asked for one token after the other, a scanner gives what
the lines of its script are cut into: finitely many things, of which only the last is the end of
the script or a problem.  From no place on the way does it search for ever, since silent steps that
lead back to the same part have taken some of the text. -/
theorem iteration_ends {text : String} (h : ClosedComments text.toList) :
    (∀ found, Iterates (some (.start text)) found ↔ found = (Lexed.ofText text).findings) ∧
      (∃ before last, (Lexed.ofText text).findings = before ++ [last] ∧ last.isLast = true ∧
        ∀ f ∈ before, f.isLast = false) ∧
      ∀ s, Relation.ReflTransGen Moves (.start text) s →
        (∃ found after, Finds s found after) ∧
        ∀ s', Relation.TransGen Silent s s' → s'.expected = s.expected →
          s'.rest.length < s.rest.length := by
  have hstart : IsClear (.start text) := isClear_of_closed h
  obtain ⟨tokens, problem, hscans⟩ := hstart.exists_scans
  obtain ⟨rfl, rfl⟩ := (scans_iff h).mp hscans
  refine ⟨fun found => ⟨fun hfound => hfound.det hscans.iterates, ?_⟩, hscans.exists_last,
    fun s hreached => ?_⟩
  · rintro rfl
    exact hscans.iterates
  · have hclear := isClear_of_reached hreached hstart
    obtain ⟨_, _, hs⟩ := hclear.exists_scans
    refine ⟨hs.finds, fun s' hsilent hexpected => ?_⟩
    obtain ⟨-, hlt⟩ := weight_lt_of_transGen hsilent hclear
    rw [weight, weight, hexpected] at hlt
    omega

/-- Blank lines and a comment are crossed silently.  A value before a lone carriage return is empty,
and the carriage return ends the run. -/
theorem iteration_ends_emptyValue :
    let text := "# dom\n\n note\r\n.name = \r"
    ClosedComments text.toList ∧
      Iterates (some (.start text))
        [.token ⟨.fileHeader "dom", 1⟩, .token ⟨.newline, 1⟩, .token ⟨.property "name", 4⟩,
          .token ⟨.value "", 4⟩, .problem (.unexpectedInput "") 4] := by
  have hclosed : ClosedComments "# dom\n\n note\r\n.name = \r".toList := by decide +kernel
  exact ⟨hclosed, ((iteration_ends hclosed).1 _).mpr (by decide +kernel)⟩

/-- Before a comment that has a lone carriage return a scanner alternates between the start of the
line and the comment. -/
theorem step_openComment {s : Scanner} {c : Char} {cs : List Char}
    (hexpected : s.expected.inStatement = false) (hrest : s.rest = c :: cs)
    (hgap : isGap c = true) (hopen : atLineEnd (s.rest.dropWhile isInLine) = false) :
    ∃ expected : Expected, expected.inStatement = false ∧
      s.step = .silent (s.goTo expected s.rest) := by
  have hc : c = ' ' ∨ c = '\t' := by simpa [isGap] using hgap
  cases hcase : s.expected with
  | line =>
      refine ⟨.comment, rfl, ?_⟩
      rw [step, hcase, hrest]
      obtain rfl | rfl := hc <;> rfl
  | comment =>
      have htake : (takeLine s.rest).2 = s.rest := by simp [takeLine, hopen]
      have hend : takeLineEnding? s.rest = none := by
        rw [hrest]
        obtain rfl | rfl := hc <;> rfl
      refine ⟨.line, rfl, ?_⟩
      simp only [step, hcase, htake, hend]
  | _ => simp [hcase, Expected.inStatement] at hexpected

/-- So it searches for ever. -/
theorem not_finds_of_openComment {s : Scanner} {c : Char} {cs : List Char} {found : Finding}
    {after : Option Scanner} (hexpected : s.expected.inStatement = false) (hrest : s.rest = c :: cs)
    (hgap : isGap c = true) (hopen : atLineEnd (s.rest.dropWhile isInLine) = false) :
    ¬ Finds s found after := by
  intro h
  induction h with
  | silent h _ ih =>
      obtain ⟨expected, hnext, hstep⟩ := step_openComment hexpected hrest hgap hopen
      obtain rfl := Scan.silent.inj (h.symm.trans hstep)
      exact ih hnext hrest hopen
  | token h | ended h | failed h =>
      obtain ⟨_, -, hstep⟩ := step_openComment hexpected hrest hgap hopen
      cases h.symm.trans hstep

end IdlModel.Script
