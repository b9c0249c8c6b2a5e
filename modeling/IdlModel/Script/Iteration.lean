import IdlModel.Script.Scanner

/-!
# Asking a scanner for one token after the other

A script is scanned on demand.  Asked for the next thing, a scanner makes silent steps until one
step gives a token, meets the end of the script or meets a problem.  Behind the end and behind a
problem the scanner is done, and gives nothing any more.

A search among silent steps need not end, so answers are a relation, `Scanner.Finds`.
-/

namespace IdlModel.Script

/-- What a scanner gives. -/
inductive Finding where
  /-- A token, or the end of the script as one. -/
  | token (token : LineToken)
  /-- A problem on a line. -/
  | problem (problem : LexProblem) (line : Nat)
deriving DecidableEq, Repr

/-- Whether a scanner is done when it has given this. -/
def Finding.isLast : Finding → Bool
  | .token t => t.token == .eof
  | .problem .. => true

/-- The tokens and the problem of a run, one after the other. -/
def findings (tokens : List LineToken) (problem : Option (LexProblem × Nat)) : List Finding :=
  tokens.map .token ++ problem.toList.map fun (problem, line) => .problem problem line

/-- All that is found in a script. -/
def Lexed.findings (l : Lexed) : List Finding := Script.findings l.tokens l.problem?

namespace Scanner

/-- What a scanner gives when it is asked, and how it goes on, if it is not done. -/
inductive Finds : Scanner → Finding → Option Scanner → Prop
  | silent {s next : Scanner} {found : Finding} {after : Option Scanner}
      (h : s.step = .silent next) (later : Finds next found after) : Finds s found after
  | token {s next : Scanner} {token : Token} (h : s.step = .token token next) :
      Finds s (.token ⟨token, s.line⟩) (some next)
  | ended {s : Scanner} (h : s.step = .ended) : Finds s (.token ⟨.eof, s.line⟩) none
  | failed {s : Scanner} {problem : LexProblem} (h : s.step = .failed problem) :
      Finds s (.problem problem s.line) none

/-- All that is given, one after the other, until the scanner is done. -/
inductive Iterates : Option Scanner → List Finding → Prop
  | done : Iterates none []
  | next {s : Scanner} {found : Finding} {after : Option Scanner} {later : List Finding}
      (h : Finds s found after) (rest : Iterates after later) : Iterates (some s) (found :: later)

/-- A step that gives nothing. -/
def Silent (s next : Scanner) : Prop := s.step = .silent next

/-- A step that does not end the run. -/
def Moves (s next : Scanner) : Prop := Silent s next ∨ ∃ token, s.step = .token token next

end Scanner

end IdlModel.Script
