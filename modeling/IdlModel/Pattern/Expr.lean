import IdlModel.Pattern.CharSet

/-!
# Matching

A pattern whose flags have been applied is an expression.  It matches a text
from one place to another.

*Places.*  A text of `n` characters has the places `0` to `n`, one before each
character and one behind the last.

*Reach.*  `Expr.reach` takes a list of places to the places that a match which
starts at one of them can end at.  Since it follows all matches at once, nothing
is tried twice, and neither the order of options nor greed matters.

*Repetitions.*  Each round of an unbounded repetition either adds a place to
those reached so far or is the last one, so one round for every place suffices.
-/

namespace IdlModel.Pattern

/-- An assertion about a place, with its flags applied. -/
inductive Look where
  | textStart | textEnd
  /-- The text starts here, or a line feed stands before. -/
  | lineStart
  /-- The text ends here, or a line feed stands behind. -/
  | lineEnd
  /-- As `lineStart`, but a carriage return ends a line too. -/
  | lineStartReturn
  /-- As `lineEnd`, but a carriage return ends a line too. -/
  | lineEndReturn
  /-- A word starts or ends here.  `isPart` decides what words are made of. -/
  | boundary (isPart : CharSet)
  | notBoundary (isPart : CharSet)
  | wordStart (isPart : CharSet)
  | wordEnd (isPart : CharSet)
  /-- No word part before. -/
  | wordStartHalf (isPart : CharSet)
  /-- No word part behind. -/
  | wordEndHalf (isPart : CharSet)
deriving Repr

/-- Whether an assertion holds between two characters.  A missing one is an end
of the text. -/
def Look.holds (look : Look) (before behind : Option Char) : Bool :=
  let isPart (s : CharSet) (c : Option Char) : Bool := c.any s.contains
  match look with
  | textStart => before.isNone
  | textEnd => behind.isNone
  | lineStart => before.isNone || before == some '\n'
  | lineEnd => behind.isNone || behind == some '\n'
  | lineStartReturn =>
      before.isNone || before == some '\n' || (before == some '\r' && behind != some '\n')
  | lineEndReturn =>
      behind.isNone || behind == some '\r' || (behind == some '\n' && before != some '\r')
  | boundary s => isPart s before != isPart s behind
  | notBoundary s => isPart s before == isPart s behind
  | wordStart s => !isPart s before && isPart s behind
  | wordEnd s => isPart s before && !isPart s behind
  | wordStartHalf s => !isPart s before
  | wordEndHalf s => !isPart s behind

/-- An expression. -/
inductive Expr where
  /-- Nothing. -/
  | empty
  /-- One character of a set. -/
  | one (s : CharSet)
  /-- Nothing, where an assertion holds. -/
  | look (look : Look)
  /-- The first and then the second. -/
  | seq (first second : Expr)
  /-- The first or the second. -/
  | either (first second : Expr)
  /-- At least `least` times, and at most `most` times if that is given. -/
  | times (e : Expr) (least : Nat) (most : Option Nat)
deriving Repr

/-! ## Lists of places -/

/-- The union of two ascending lists. -/
def mergePlaces : List Nat → List Nat → List Nat
  | [], qs => qs
  | ps, [] => ps
  | p :: ps, q :: qs =>
      if p < q then p :: mergePlaces ps (q :: qs)
      else if q < p then q :: mergePlaces (p :: ps) qs
      else p :: mergePlaces ps qs

/-- Take `n` steps.  Where a step changes nothing, no further one does. -/
def stepExactly (step : List Nat → List Nat) : (n : Nat) → List Nat → List Nat
  | 0, ps => ps
  | n + 1, ps =>
      let qs := step ps
      if qs = ps then ps else stepExactly step n qs

/-- Take up to `n` steps, and keep every place on the way. -/
def stepUpTo (step : List Nat → List Nat) : (n : Nat) → List Nat → List Nat
  | 0, ps => ps
  | n + 1, ps =>
      let qs := mergePlaces ps (step ps)
      if qs = ps then ps else stepUpTo step n qs

namespace Expr

/-- Where a match that starts at one of some places can end. -/
def reach (text : Array Char) : Expr → List Nat → List Nat
  | empty, ps => ps
  | one s, ps => ps.filterMap fun p => if (text[p]?).any s.contains then some (p + 1) else none
  | look l, ps => ps.filter fun p => l.holds (if p = 0 then none else text[p - 1]?) text[p]?
  | seq e f, ps => reach text f (reach text e ps)
  | either e f, ps => mergePlaces (reach text e ps) (reach text f ps)
  | times e least most, ps =>
      let rounds := match most with
        | none => text.size + 1
        | some most => most - least
      stepUpTo (fun qs => reach text e qs) rounds
        (stepExactly (fun qs => reach text e qs) least ps)

/-- Whether the expression matches somewhere in a text. -/
def occursIn (e : Expr) (text : String) : Bool :=
  let chars := text.toList.toArray
  !(e.reach chars (List.range (chars.size + 1))).isEmpty

/-- Expressions one behind the other. -/
def seqAll : List Expr → Expr
  | [] => empty
  | [e] => e
  | e :: es => seq e (seqAll es)

/-- The options of an alternation. -/
def eitherAll : List Expr → Expr
  | [] => one .empty
  | [e] => e
  | e :: es => either e (eitherAll es)

end Expr

end IdlModel.Pattern
