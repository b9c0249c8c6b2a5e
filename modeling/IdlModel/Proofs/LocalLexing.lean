import IdlModel.Proofs.Scanning
import IdlModel.Text.Replace

/-!
# Lines on their own

Every line of a text is lexed on its own.

*Joined texts.*  Behind a text that ends with its lines, another text gives the tokens that it
gives alone, further down: `ofText_append`.  Of the first text only the end of the script is left
out.

*Line endings.*  A line feed and a carriage return with a line feed end a line alike:
`ofText_replaceAll_lineFeeds`.

Both hold of the lines that a text is cut into, and so of the runs of a scanner, which does not
know the lines beforehand.
-/

namespace IdlModel.Script

/-! ## Further down -/

/-- The token, a number of lines further down. -/
def LineToken.below (n : Nat) (t : LineToken) : LineToken := { t with line := t.line + n }

/-- A problem and its line, a number of lines further down. -/
def problemBelow (n : Nat) (problem : LexProblem × Nat) : LexProblem × Nat :=
  (problem.1, problem.2 + n)

namespace Lexed

/-- What is lexed, a number of lines further down. -/
def below (n : Nat) (l : Lexed) : Lexed where
  lines := l.lines.map fun line => { line with number := line.number + n }
  ending :=
    match l.ending with
    | .finished line => .finished (line + n)
    | .failed line tokens problem => .failed (line + n) tokens problem

theorem tokens_below (n : Nat) (l : Lexed) : (l.below n).tokens = l.tokens.map (·.below n) := by
  obtain ⟨lines, _ | _⟩ := l <;>
    simp [tokens, below, List.map_flatMap, List.flatMap_map, Function.comp_def, LineToken.below]

theorem problem?_below (n : Nat) (l : Lexed) :
    (l.below n).problem? = l.problem?.map (problemBelow n) := by
  obtain ⟨lines, _ | _⟩ := l <;> rfl

/-- Lines are cut alike wherever they stand. -/
theorem ofLines_add (n before : Nat) (lines : List (List Char)) :
    ofLines (before + n) lines = (ofLines before lines).below n := by
  induction lines generalizing before with
  | nil => rfl
  | cons line rest ih =>
      have hnumber : before + n + 1 = before + 1 + n := by omega
      match hcut : LexedLine.ofChars line with
      | ⟨tokens, some problem⟩ =>
          simp [ofLines_of_problem hcut, below, hnumber]
      | ⟨[], none⟩ => rw [ofLines_of_skipped hcut, ofLines_of_skipped hcut, hnumber, ih]
      | ⟨token :: tokens, none⟩ =>
          simp [ofLines_of_tokens hcut, below, hnumber, ih]

/-- A problem among lines ends the lexing, whatever lines follow. -/
theorem problem?_ofLines_append {before : Nat} {front : List (List Char)}
    (later : List (List Char)) (h : (ofLines before (front ++ later)).problem? = none) :
    (ofLines before front).problem? = none := by
  induction front generalizing before with
  | nil => rfl
  | cons line rest ih =>
      rw [List.cons_append] at h
      match hcut : LexedLine.ofChars line with
      | ⟨tokens, some problem⟩ =>
          rw [ofLines_of_problem hcut] at h
          cases h
      | ⟨[], none⟩ =>
          rw [ofLines_of_skipped hcut] at h ⊢
          exact ih h
      | ⟨token :: tokens, none⟩ =>
          rw [ofLines_of_tokens hcut] at h ⊢
          exact ih h

/-- Behind lines without a problem, the other lines go on with the numbers. -/
theorem ofLines_append {before : Nat} {front later : List (List Char)}
    (h : (ofLines before front).problem? = none) :
    ofLines before (front ++ later) =
      ⟨(ofLines before front).lines ++ (ofLines (before + front.length) later).lines,
        (ofLines (before + front.length) later).ending⟩ := by
  induction front generalizing before with
  | nil => rfl
  | cons line rest ih =>
      have hlength : before + 1 + rest.length = before + (line :: rest).length := by
        rw [List.length_cons]
        omega
      rw [List.cons_append]
      match hcut : LexedLine.ofChars line with
      | ⟨tokens, some problem⟩ =>
          rw [ofLines_of_problem hcut] at h
          cases h
      | ⟨[], none⟩ =>
          rw [ofLines_of_skipped hcut] at h ⊢
          rw [ofLines_of_skipped hcut, ih h, hlength]
      | ⟨token :: tokens, none⟩ =>
          rw [ofLines_of_tokens hcut] at h ⊢
          rw [ofLines_of_tokens hcut, ih h, hlength]
          rfl

/-- Behind lines without a problem, the other lines are cut as at the start, further down. -/
theorem ofLines_append_below {front : List (List Char)} (later : List (List Char))
    (h : (ofLines 0 front).problem? = none) :
    (ofLines 0 (front ++ later)).tokens =
        (ofLines 0 front).lines.flatMap (fun l => (l.tokens ++ [.newline]).map (⟨·, l.number⟩)) ++
          (ofLines 0 later).tokens.map (·.below front.length) ∧
      (ofLines 0 (front ++ later)).problem? =
        (ofLines 0 later).problem?.map (problemBelow front.length) := by
  rw [← tokens_below, ← problem?_below, ← ofLines_add, ofLines_append h]
  simp [tokens, problem?]

end Lexed

/-! ## Joined texts -/

/-- A text that ends with its lines: its last line is empty, and the first line of a text behind
it follows the others. -/
theorem exists_linesOf_append {a : List Char} (h : a = [] ∨ a.getLast? = some '\n') :
    ∃ front, front.length = a.count '\n' ∧ linesOf a = front ++ [[]] ∧
      ∀ b, linesOf (a ++ b) = front ++ linesOf b := by
  induction a using text_induction with
  | last p hp =>
      obtain rfl : p = [] := h.resolve_right fun hlast => hp (List.mem_of_getLast? hlast)
      exact ⟨[], rfl, rfl, fun b => rfl⟩
  | line p rest hp ih =>
      have hrest : rest = [] ∨ rest.getLast? = some '\n' := by
        cases rest with
        | nil => exact .inl rfl
        | cons c cs => exact .inr (by simpa using h)
      obtain ⟨front, hlength, hlines, hfront⟩ := ih hrest
      refine ⟨dropReturn p :: front, ?_, ?_, fun b => ?_⟩
      · simp [hlength, List.count_eq_zero_of_not_mem hp]
      · rw [linesOf_line hp, hlines, List.cons_append]
      · rw [List.append_assoc, List.cons_append, linesOf_line hp, hfront b, List.cons_append]

theorem ClosedComments.append {a b : List Char} (hfull : a = [] ∨ a.getLast? = some '\n')
    (ha : ClosedComments a) (hb : ClosedComments b) : ClosedComments (a ++ b) := by
  obtain ⟨front, -, hlines, hfront⟩ := exists_linesOf_append hfull
  unfold ClosedComments at ha ⊢
  rw [hlines] at ha
  rw [hfront b]
  exact List.forall_mem_append.mpr ⟨(List.forall_mem_append.mp ha).1, hb⟩

/-- Lexing is local to lines.  Behind a text that ends with its lines and has no problem, another
text is lexed as it is alone, in the lines below.  Only the end of the first text is left out.  A
scanner goes through the joined texts in the same way. -/
theorem ofText_append {a b : String} (hfull : a = "" ∨ a.toList.getLast? = some '\n')
    (ha : (Lexed.ofText a).problem? = none) :
    let n := a.toList.count '\n'
    ∃ front, (Lexed.ofText a).tokens = front ++ [⟨.eof, n + 1⟩] ∧
      (Lexed.ofText (a ++ b)).tokens = front ++ (Lexed.ofText b).tokens.map (·.below n) ∧
      (Lexed.ofText (a ++ b)).problem? = (Lexed.ofText b).problem?.map (problemBelow n) ∧
      (ClosedComments a.toList → ClosedComments b.toList →
        Scanner.Scans (.start a) (front ++ [⟨.eof, n + 1⟩]) none ∧
        ∀ tokens problem, Scanner.Scans (.start b) tokens problem →
          Scanner.Scans (.start (a ++ b)) (front ++ tokens.map (·.below n))
            (problem.map (problemBelow n))) := by
  intro n
  have hfull := hfull.imp_left String.toList_eq_nil_iff.mpr
  obtain ⟨front, hlength, hlines, hfront⟩ := exists_linesOf_append hfull
  have hclean : (Lexed.ofLines 0 front).problem? = none :=
    Lexed.problem?_ofLines_append [[]] (hlines ▸ ha)
  obtain ⟨htokens, -⟩ := Lexed.ofLines_append_below [[]] hclean
  obtain ⟨htokens', hproblem'⟩ := Lexed.ofLines_append_below (linesOf b.toList) hclean
  rw [hlength] at htokens htokens' hproblem'
  rw [← hlines, show (Lexed.ofLines 0 [[]]).tokens = [⟨.eof, 1⟩] from rfl, List.map_singleton,
    LineToken.below, Nat.add_comm 1] at htokens
  rw [← hfront, ← String.toList_append] at htokens' hproblem'
  refine ⟨_, htokens, htokens', hproblem', fun hca hcb => ⟨?_, fun tokens problem hb => ?_⟩⟩
  · have hscans := scans_ofText hca
    rwa [ha, Lexed.ofText, htokens] at hscans
  · obtain ⟨rfl, rfl⟩ := (scans_iff hcb).mp hb
    have hcab : ClosedComments (a ++ b).toList :=
      String.toList_append ▸ ClosedComments.append hfull hca hcb
    have hscans := scans_ofText hcab
    rwa [Lexed.ofText, htokens', hproblem'] at hscans

/-- A text with a comment, and behind it one with an open string. -/
theorem ofText_append_openString :
    Scanner.Scans (.start ("# dom\n\n ## note\r\n" ++ "## Node\n.name = \"open\n"))
      [⟨.fileHeader "dom", 1⟩, ⟨.newline, 1⟩, ⟨.typeHeader "Node", 4⟩, ⟨.newline, 4⟩,
        ⟨.property "name", 5⟩]
      (some (.unterminatedString, 5)) := by
  obtain ⟨front, hfront, -, -, hscans⟩ :=
    ofText_append (a := "# dom\n\n ## note\r\n") (b := "## Node\n.name = \"open\n")
      (.inr (by decide)) (by decide +kernel)
  have htokens : (Lexed.ofText "# dom\n\n ## note\r\n").tokens =
      [⟨.fileHeader "dom", 1⟩, ⟨.newline, 1⟩] ++ [⟨.eof, 4⟩] := by decide +kernel
  obtain rfl := List.append_cancel_right (htokens.symm.trans hfront)
  have hlater : Scanner.Scans (.start "## Node\n.name = \"open\n")
      [⟨.typeHeader "Node", 1⟩, ⟨.newline, 1⟩, ⟨.property "name", 2⟩]
      (some (.unterminatedString, 2)) :=
    (scans_iff (by decide +kernel)).mpr (by decide +kernel)
  exact (hscans (by decide +kernel) (by decide +kernel)).2 _ _ hlater

/-! ## Line endings -/

/-- The text with a carriage return before every line feed. -/
theorem replaceFrom_lineFeed {p : List Char} (hp : '\n' ∉ p) (rest : List Char) :
    Text.replaceFrom ['\n'] ['\r', '\n'] 0 (p ++ '\n' :: rest) =
      p ++ '\r' :: '\n' :: Text.replaceFrom ['\n'] ['\r', '\n'] 0 rest := by
  induction p with
  | nil => rfl
  | cons c p ih =>
      rw [List.mem_cons, not_or] at hp
      simp [Text.replaceFrom, ih hp.2, hp.1]

theorem replaceFrom_of_noFeed {p : List Char} (hp : '\n' ∉ p) :
    Text.replaceFrom ['\n'] ['\r', '\n'] 0 p = p := by
  induction p with
  | nil => rfl
  | cons c p ih =>
      rw [List.mem_cons, not_or] at hp
      simp [Text.replaceFrom, ih hp.2, hp.1]

/-- With a carriage return before every line feed, a text without others has the same lines. -/
theorem linesOf_replaceFrom {cs : List Char} (h : '\r' ∉ cs) :
    linesOf (Text.replaceFrom ['\n'] ['\r', '\n'] 0 cs) = linesOf cs := by
  induction cs using text_induction with
  | last p hp => rw [replaceFrom_of_noFeed hp]
  | line p rest hp ih =>
      have hp' : '\r' ∉ p := fun hreturn => h (List.mem_append_left _ hreturn)
      have hrest : '\r' ∉ rest := fun hreturn => h (by simp [hreturn])
      have hlast : p.getLast? ≠ some '\r' := fun hreturn => hp' (List.mem_of_getLast? hreturn)
      have hdrop : dropReturn (p ++ ['\r']) = dropReturn p := by simp [dropReturn, hlast]
      rw [replaceFrom_lineFeed hp, List.append_cons, linesOf_line (by simp [hp]), linesOf_line hp,
        ih hrest, hdrop]

theorem closedComments_of_noReturn {cs : List Char} (h : '\r' ∉ cs) : ClosedComments cs := by
  intro line hline _ hreturn
  obtain ⟨k, hk⟩ := List.mem_iff_getElem?.mp hline
  obtain ⟨before, after, rfl, -⟩ := (getElem?_linesOf.mp hk).split
  exact h (by simp [hreturn])

/-- Line endings do not matter.  A text without carriage returns gives the same lines of tokens, or
the same problem on the same line, if every line feed is replaced by a carriage return and a line
feed.  A scanner goes through both texts alike. -/
theorem ofText_replaceAll_lineFeeds {text : String} (h : '\r' ∉ text.toList) :
    Lexed.ofText (Text.replaceAll text "\n" "\r\n") = Lexed.ofText text ∧
      ∀ tokens problem,
        Scanner.Scans (.start (Text.replaceAll text "\n" "\r\n")) tokens problem ↔
          Scanner.Scans (.start text) tokens problem := by
  have hlines : linesOf (Text.replaceAll text "\n" "\r\n").toList = linesOf text.toList := by
    rw [Text.replaceAll, String.toList_ofList]
    exact linesOf_replaceFrom h
  have hclosed := closedComments_of_noReturn h
  have hreplaced : ClosedComments (Text.replaceAll text "\n" "\r\n").toList := by
    rwa [ClosedComments, hlines]
  have hlexed : Lexed.ofText (Text.replaceAll text "\n" "\r\n") = Lexed.ofText text := by
    rw [Lexed.ofText, hlines, Lexed.ofText]
  refine ⟨hlexed, fun tokens problem => ?_⟩
  rw [scans_iff hclosed, scans_iff hreplaced, hlexed]

/-- A header, a property, and a string that is open behind a backslash. -/
theorem ofText_replaceAll_lineFeeds_openString :
    let text := "## Node\n.name = Leaf \n@patch \"\\\n"
    '\r' ∉ text.toList ∧
      (Lexed.ofText (Text.replaceAll text "\n" "\r\n")).problem? = some (.unterminatedString, 3) ∧
      Scanner.Scans (.start (Text.replaceAll text "\n" "\r\n"))
        [⟨.typeHeader "Node", 1⟩, ⟨.newline, 1⟩, ⟨.property "name", 2⟩, ⟨.value "Leaf", 2⟩,
          ⟨.newline, 2⟩, ⟨.command "patch", 3⟩]
        (some (.unterminatedString, 3)) := by
  have hreturn : '\r' ∉ "## Node\n.name = Leaf \n@patch \"\\\n".toList := by decide
  obtain ⟨hlexed, hscans⟩ := ofText_replaceAll_lineFeeds hreturn
  refine ⟨hreturn, ?_, (hscans _ _).mpr ((scans_iff (by decide +kernel)).mpr (by decide +kernel))⟩
  rw [hlexed]
  decide +kernel

end IdlModel.Script
