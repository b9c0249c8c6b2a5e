import IdlModel.Script.Problem
import IdlModel.Script.Token
import IdlModel.Text.CodeRange

/-!
# Cutting scripts into tokens

A script is cut into lines, and each line into tokens on its own, so nothing of
a line can leak into the next one.

* A line ends with a line feed, or with a carriage return and a line feed.
* A line that is empty or starts with a space or a tab is skipped.
* The first character of any other line tells what it is: `#` and `##` start a
  header, `.` a property, `@` a command, and a letter or `_` a member.
* Between the parts of a line there may be spaces and tabs.
* Bare text goes up to the end of its line and loses the white space at its
  end.  It does not start if a carriage return stands anywhere in it.

Lexing ends at the first line with a problem.  The tokens before the problem
are kept.
-/

namespace IdlModel.Script

open Text (isAlphabetic isAlphanumeric trimEnd)

/-! ## Characters -/

/-- Whether a character can start a name. -/
def isNameStart (c : Char) : Bool := isAlphabetic c || c == '_'

/-- Whether a character can be in a name. -/
def isNamePart (c : Char) : Bool := isAlphanumeric c || c == '_'

/-- A space or a tab. -/
def isGap (c : Char) : Bool := c == ' ' || c == '\t'

/-- Whether a character can be in a bare argument. -/
def isWordPart (c : Char) : Bool := !isGap c && c != '\n' && c != '\r'

/-! ## Parts of a line -/

/-- The text without the gaps at its start. -/
def dropGaps (cs : List Char) : List Char := cs.dropWhile isGap

/-- Take a name.  Refuses a text that does not start with one. -/
def takeName? : List Char → Option (String × List Char)
  | [] => none
  | c :: cs =>
      if isNameStart c then
        some (String.ofList (c :: cs.takeWhile isNamePart), cs.dropWhile isNamePart)
      else none

/-- Take bare text up to the end of the line.  If there is a carriage return in
it, nothing is taken. -/
def takeTail (cs : List Char) : List Char × List Char :=
  if cs.contains '\r' then ([], cs) else (cs, [])

/-- Take a string whose opening quote has been taken.  A backslash before a
quote or a backslash is dropped, and any other one is kept.  Refuses a string
without a closing quote. -/
def takeString? : List Char → Option (List Char × List Char)
  | [] => none
  | '"' :: rest => some ([], rest)
  | ['\\'] => none
  | '\\' :: c :: rest =>
      let kept := if c = '"' ∨ c = '\\' then [c] else ['\\', c]
      (takeString? rest).map fun (s, after) => (kept ++ s, after)
  | c :: rest => (takeString? rest).map fun (s, after) => (c :: s, after)

/-- What is behind a string is shorter than the text it starts in. -/
theorem length_takeString? {cs s after : List Char} (h : takeString? cs = some (s, after)) :
    after.length < cs.length := by
  fun_induction takeString? cs generalizing s after with
  | case1 | case3 => simp at h
  | case2 rest => simp_all
  | case4 | case5 =>
      rename_i ih
      obtain ⟨⟨s', after'⟩, h', he⟩ := Option.map_eq_some_iff.1 h
      have := ih h'
      simp only [Prod.mk.injEq] at he
      simp only [List.length_cons, ← he.2]
      omega

/-! ## Lines -/

/-- The tokens of a line, and the problem behind them if there is one. -/
structure LexedLine where
  /-- The tokens. -/
  tokens : List Token := []
  /-- The problem. -/
  problem : Option LexProblem := none
deriving DecidableEq, Repr

namespace LexedLine

/-- A line with a problem and no tokens. -/
def failed (problem : LexProblem) : LexedLine := { problem := some problem }

/-- Put a token in front. -/
def cons (token : Token) (line : LexedLine) : LexedLine := { line with tokens := token :: line.tokens }

/-- Nothing but gaps may stand at the end of a line. -/
def ending (cs : List Char) : LexedLine :=
  match dropGaps cs with
  | [] => {}
  | rest => failed (.unexpectedInput (String.ofList (trimEnd (takeTail rest).1)))

/-- The value behind `=`: a string, or bare text. -/
def assigned (cs : List Char) : LexedLine :=
  match dropGaps cs with
  | [] => failed (.unterminatedLine .value)
  | '"' :: rest =>
      match takeString? rest with
      | some (s, after) => (ending after).cons (.str (String.ofList s))
      | none => failed .unterminatedString
  | rest =>
      let (tail, after) := takeTail rest
      (ending after).cons (.value (String.ofList (trimEnd tail)))

/-- The arguments of a command. -/
def arguments : List Char → LexedLine
  | [] => {}
  | c :: cs =>
      if isGap c then arguments cs
      else if c = '"' then
        match _h : takeString? cs with
        | some (s, after) => (arguments after).cons (.str (String.ofList s))
        | none => failed .unterminatedString
      else if c = '\r' then failed .carriageReturn
      else
        let word := c :: cs.takeWhile isWordPart
        let after := cs.dropWhile isWordPart
        if word = ['='] then (assigned after).cons .assign
        else (arguments after).cons (.word (String.ofList word))
termination_by cs => cs.length
decreasing_by
  · simp
  · have := length_takeString? _h
    simp only [List.length_cons]
    omega
  · have := (List.dropWhile_suffix isWordPart (l := cs)).length_le
    simp only [List.length_cons]
    omega

/-- A name that must stand here, and what goes on behind it. -/
def named (wanted : Wanted) (cs : List Char) (next : String → List Char → LexedLine) : LexedLine :=
  match takeName? cs with
  | some (name, rest) => next name rest
  | none => failed (if cs.isEmpty then .unterminatedLine wanted else .missing wanted)

/-- A name, `=` and a value. -/
def assignment (token : String → Token) (wanted : Wanted) (cs : List Char) : LexedLine :=
  named wanted cs fun name rest =>
    match dropGaps rest with
    | [] => failed (.unterminatedLine .assign)
    | '=' :: rest => (assigned rest).cons (token name)
    | _ => failed (.missing .assign)

/-- A command and its arguments. -/
def commandLine (cs : List Char) : LexedLine :=
  named .commandName cs fun name rest => (arguments rest).cons (.command name)

/-- A header behind its marker. -/
def header (marker : String) (token : String → Token) (cs : List Char) : LexedLine :=
  match trimEnd (takeTail (dropGaps cs)).1 with
  | [] => failed (.unnamedHeader marker)
  | name => { tokens := [token (String.ofList name)] }

/-- Cut a line into tokens. -/
def ofChars : List Char → LexedLine
  | [] => {}
  | '#' :: '#' :: rest => header "##" .typeHeader rest
  | '#' :: rest => header "#" .fileHeader rest
  | '.' :: rest => assignment .property .propertyName rest
  | '@' :: rest => commandLine rest
  | c :: rest =>
      if c = '\r' then failed .carriageReturn
      else if isGap c then {}
      else if isNameStart c then assignment .rename .memberName (c :: rest)
      else failed (.unexpectedCharacter c)

end LexedLine

/-! ## Scripts -/

/-- A line that is not empty, without the token for its end. -/
structure Line where
  /-- The number of the line. -/
  number : Nat
  /-- Its tokens. -/
  tokens : List Token
deriving DecidableEq, Repr

/-- How lexing ends. -/
inductive Ending where
  /-- At the end of the script. -/
  | finished (line : Nat)
  /-- At a problem, behind some tokens of its line. -/
  | failed (line : Nat) (tokens : List Token) (problem : LexProblem)
deriving DecidableEq, Repr

/-- A script in tokens. -/
structure Lexed where
  /-- The lines before the end. -/
  lines : List Line
  /-- The end. -/
  ending : Ending
deriving DecidableEq, Repr

/-- A line without the carriage return at its end. -/
def dropReturn (line : List Char) : List Char :=
  if line.getLast? = some '\r' then line.dropLast else line

/-- The lines of a script without their endings.  Only a line that ends with a
line feed may have a carriage return before it. -/
def linesOf (cs : List Char) : List (List Char) :=
  let pieces := Text.splitAt '\n' cs
  pieces.dropLast.map dropReturn ++ pieces.getLast?.toList

namespace Lexed

/-- Cut lines into tokens.  `before` lines stand before them. -/
def ofLines : (before : Nat) → List (List Char) → Lexed
  | before, [] => ⟨[], .finished before⟩
  | before, line :: rest =>
      let number := before + 1
      match LexedLine.ofChars line with
      | ⟨tokens, some problem⟩ => ⟨[], .failed number tokens problem⟩
      | ⟨[], none⟩ => ofLines number rest
      | ⟨tokens, none⟩ =>
          let later := ofLines number rest
          { later with lines := ⟨number, tokens⟩ :: later.lines }

/-- Cut a script into tokens. -/
def ofText (text : String) : Lexed := ofLines 0 (linesOf text.toList)

/-- All tokens, the ends of the lines and the end of the script among them. -/
def tokens (l : Lexed) : List LineToken :=
  l.lines.flatMap (fun line => (line.tokens ++ [.newline]).map (⟨·, line.number⟩)) ++
    match l.ending with
    | .finished line => [⟨.eof, line⟩]
    | .failed line tokens _ => tokens.map (⟨·, line⟩)

/-- The problem that lexing ended at, and its line. -/
def problem? (l : Lexed) : Option (LexProblem × Nat) :=
  match l.ending with
  | .finished _ => none
  | .failed line _ problem => some (problem, line)

end Lexed

end IdlModel.Script
