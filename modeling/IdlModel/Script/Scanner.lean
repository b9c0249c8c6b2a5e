import IdlModel.Script.Lexer

/-!
# Scanning scripts

A *scanner* goes through a script from its start to its end.  It knows the text
that is left, the number of the line it stands on, and what part of a line
comes next.  It never looks back, and it does not know where its line ends
before it gets there.

A step takes one part of a line.  It gives a token, or it is silent and only
moves the scanner, or it meets the end of the script or a problem.  Four parts
of a line end with it.

* *White space*: gaps are dropped up to the line ending.
* *Bare text*: it goes up to the line ending.  If a carriage return that starts
  no line ending comes first, nothing is taken.
* *Strings*: a line feed ends the search for the closing quote, behind a
  backslash as well.
* *Words*: a line feed and a carriage return are no parts of words.

A comment with a lone carriage return is never left.  The scanner takes nothing
of it, goes back to the start of the line and finds the comment again.  So runs
are a relation, `Scanner.Scans`, and only runs that end are in it.
-/

namespace IdlModel.Script

open Text (trimEnd)

/-! ## Line endings -/

/-- Whether a text is at the end of a line. -/
def atLineEnd : List Char → Bool
  | [] | '\n' :: _ | '\r' :: '\n' :: _ => true
  | _ => false

/-- Take a line ending. -/
def takeLineEnding? : List Char → Option (List Char)
  | '\n' :: rest | '\r' :: '\n' :: rest => some rest
  | _ => none

/-- Whether a character starts no line ending. -/
def isInLine (c : Char) : Bool := c != '\n' && c != '\r'

/-- Take the text up to the line ending.  If a lone carriage return comes first,
nothing is taken. -/
def takeLine (cs : List Char) : List Char × List Char :=
  let after := cs.dropWhile isInLine
  if atLineEnd after then (cs.takeWhile isInLine, after) else ([], cs)

/-- Take a string of the line whose opening quote has been taken. -/
def takeLineString? : List Char → Option (List Char × List Char)
  | [] | '\n' :: _ | ['\\'] | '\\' :: '\n' :: _ => none
  | '"' :: rest => some ([], rest)
  | '\\' :: c :: rest =>
      let kept := if c = '"' ∨ c = '\\' then [c] else ['\\', c]
      (takeLineString? rest).map fun (s, after) => (kept ++ s, after)
  | c :: rest => (takeLineString? rest).map fun (s, after) => (c :: s, after)

/-! ## Scanners -/

/-- What a scanner expects. -/
inductive Expected where
  /-- A new line. -/
  | line
  /-- A comment. -/
  | comment
  /-- The name of a property, `=` behind it. -/
  | property
  /-- The name of a member, `=` behind it. -/
  | member
  /-- The name of a command. -/
  | command
  /-- An argument, or the end of the arguments. -/
  | argument
  /-- The value behind `=`. -/
  | value
  /-- The end of the line. -/
  | lineEnd
deriving DecidableEq, Repr

/-- A place in a script. -/
structure Scanner where
  /-- The text that is left. -/
  rest : List Char
  /-- The line. -/
  line : Nat := 1
  /-- What comes next. -/
  expected : Expected := .line
deriving DecidableEq, Repr

/-- What a step does. -/
inductive Scan where
  /-- Move without a token. -/
  | silent (next : Scanner)
  /-- Give a token, which stands on the line that the step starts on. -/
  | token (token : Token) (next : Scanner)
  /-- Meet the end of the script. -/
  | ended
  /-- Meet a problem. -/
  | failed (problem : LexProblem)
deriving DecidableEq, Repr

namespace Scanner

/-- The scanner at the start of a script. -/
def start (text : String) : Scanner := { rest := text.toList }

/-- Go to another place on the same line. -/
def goTo (s : Scanner) (expected : Expected) (rest : List Char) : Scanner :=
  { s with rest, expected }

/-- Go behind a line ending. -/
def nextLine (s : Scanner) (rest : List Char) : Scanner :=
  { rest, line := s.line + 1, expected := .line }

/-- The name of a header behind its marker. -/
def header (s : Scanner) (marker : String) (token : String → Token) (rest : List Char) : Scan :=
  let (text, after) := takeLine (dropGaps rest)
  match trimEnd text with
  | [] => .failed (.unnamedHeader marker)
  | name => .token (token (String.ofList name)) (s.goTo .lineEnd after)

/-- A name that must stand here, and what is done behind it. -/
def name (s : Scanner) (wanted : Wanted) (next : String → List Char → Scan) : Scan :=
  match takeName? s.rest with
  | some (name, rest) => next name rest
  | none => .failed (if atLineEnd s.rest then .unterminatedLine wanted else .missing wanted)

/-- A name with `=` behind it. -/
def target (s : Scanner) (token : String → Token) (wanted : Wanted) : Scan :=
  s.name wanted fun name rest =>
    let rest := dropGaps rest
    if atLineEnd rest then .failed (.unterminatedLine .assign)
    else
      match rest with
      | '=' :: rest => .token (token name) (s.goTo .value rest)
      | _ => .failed (.missing .assign)

/-- A string behind its opening quote. -/
def string (s : Scanner) (next : Expected) (rest : List Char) : Scan :=
  match takeLineString? rest with
  | some (text, after) => .token (.str (String.ofList text)) (s.goTo next after)
  | none => .failed .unterminatedString

/-- A bare argument. -/
def word (s : Scanner) (rest : List Char) : Scan :=
  let text := rest.takeWhile isWordPart
  let after := rest.dropWhile isWordPart
  if text = [] then .failed (.missing .argument)
  else if text = ['='] then .token .assign (s.goTo .value after)
  else .token (.word (String.ofList text)) (s.goTo .argument after)

/-- The start of a line. -/
def startLine (s : Scanner) : List Char → Scan
  | [] => .ended
  | '#' :: '#' :: rest => s.header "##" .typeHeader rest
  | '#' :: rest => s.header "#" .fileHeader rest
  | '.' :: rest => .silent (s.goTo .property rest)
  | '@' :: rest => .silent (s.goTo .command rest)
  | c :: rest =>
      if c = '\n' ∨ c = '\r' then
        match takeLineEnding? (c :: rest) with
        | some rest => .silent (s.nextLine rest)
        | none => .failed .carriageReturn
      else if isGap c then .silent (s.goTo .comment (c :: rest))
      else if isNameStart c then .silent (s.goTo .member (c :: rest))
      else .failed (.unexpectedCharacter c)

/-- A step. -/
def step (s : Scanner) : Scan :=
  match s.expected with
  | .line => s.startLine s.rest
  | .comment =>
      let after := (takeLine s.rest).2
      match takeLineEnding? after with
      | some rest => .silent (s.nextLine rest)
      | none => .silent (s.goTo .line after)
  | .property => s.target .property .propertyName
  | .member => s.target .rename .memberName
  | .command => s.name .commandName fun name rest => .token (.command name) (s.goTo .argument rest)
  | .argument =>
      let rest := dropGaps s.rest
      if atLineEnd rest then .silent (s.goTo .lineEnd rest)
      else
        match rest with
        | '"' :: rest => s.string .argument rest
        | '\r' :: _ => .failed .carriageReturn
        | rest => s.word rest
  | .value =>
      let rest := dropGaps s.rest
      if atLineEnd rest then .failed (.unterminatedLine .value)
      else
        match rest with
        | '"' :: rest => s.string .lineEnd rest
        | rest =>
            let (text, after) := takeLine rest
            .token (.value (String.ofList (trimEnd text))) (s.goTo .lineEnd after)
  | .lineEnd =>
      let rest := dropGaps s.rest
      if rest = [] then .token .newline (s.goTo .line [])
      else
        match takeLineEnding? rest with
        | some rest => .token .newline (s.nextLine rest)
        | none => .failed (.unexpectedInput (String.ofList (trimEnd (takeLine rest).1)))

/-- The runs that end: the tokens on the way, and the problem at the end with
its line if there is one. -/
inductive Scans : Scanner → List LineToken → Option (LexProblem × Nat) → Prop
  | silent {s next : Scanner} {tokens : List LineToken} {problem : Option (LexProblem × Nat)}
      (h : s.step = .silent next) (later : Scans next tokens problem) : Scans s tokens problem
  | token {s next : Scanner} {token : Token} {tokens : List LineToken}
      {problem : Option (LexProblem × Nat)} (h : s.step = .token token next)
      (later : Scans next tokens problem) : Scans s (⟨token, s.line⟩ :: tokens) problem
  | ended {s : Scanner} (h : s.step = .ended) : Scans s [⟨.eof, s.line⟩] none
  | failed {s : Scanner} {problem : LexProblem} (h : s.step = .failed problem) :
      Scans s [] (some (problem, s.line))

end Scanner

end IdlModel.Script
