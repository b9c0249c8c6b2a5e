/-!
# Faults of patterns

A pattern that cannot be read has one *fault*: a cause and the part of the
pattern where it shows.  Some faults also point at a part that was read before,
such as the first of two equal flags.

The message shows the pattern with carets under these parts.
-/

namespace IdlModel.Pattern

/-- A part of a pattern, from a place up to another, counted in characters. -/
structure Span where
  /-- The place of its first character. -/
  start : Nat
  /-- The place behind its last character. -/
  stop : Nat
deriving DecidableEq, Repr, Inhabited

/-- What can be wrong with a pattern. -/
inductive FaultKind where
  | classEscape | classRangeOrder | classRangeBound | unclosedClass
  | decimalInvalid
  | hexEmpty | hexInvalid | hexDigit | escapeEnd | escapeUnknown
  | danglingNegation | duplicateFlag (first : Span) | repeatedNegation (first : Span)
  | flagEnd | unknownFlag
  | duplicateName (first : Span) | emptyName | nameCharacter | nameEnd
  | unclosedGroup | unopenedGroup
  | tooDeep (limit : Nat)
  | countOrder | countDecimal | unclosedCount | nothingToRepeat
  | boundaryUnclosed | boundaryUnknown | boundaryOrCount
  | propertyName | backreference | lookAround
  | unicodeForbidden | invalidBytes | unknownProperty | unknownPropertyValue
deriving DecidableEq, Repr

/-- The wording of a cause. -/
def FaultKind.text : FaultKind → String
  | .classEscape => "invalid escape sequence found in character class"
  | .classRangeOrder => "invalid character class range, the start must be <= the end"
  | .classRangeBound => "invalid range boundary, must be a literal"
  | .unclosedClass => "unclosed character class"
  | .decimalInvalid => "decimal literal invalid"
  | .hexEmpty => "hexadecimal literal empty"
  | .hexInvalid => "hexadecimal literal is not a Unicode scalar value"
  | .hexDigit => "invalid hexadecimal digit"
  | .escapeEnd => "incomplete escape sequence, reached end of pattern prematurely"
  | .escapeUnknown => "unrecognized escape sequence"
  | .danglingNegation => "dangling flag negation operator"
  | .duplicateFlag _ => "duplicate flag"
  | .repeatedNegation _ => "flag negation operator repeated"
  | .flagEnd => "expected flag but got end of regex"
  | .unknownFlag => "unrecognized flag"
  | .duplicateName _ => "duplicate capture group name"
  | .emptyName => "empty capture group name"
  | .nameCharacter => "invalid capture group character"
  | .nameEnd => "unclosed capture group name"
  | .unclosedGroup => "unclosed group"
  | .unopenedGroup => "unopened group"
  | .tooDeep limit =>
      "exceed the maximum number of nested parentheses/brackets (" ++ toString limit ++ ")"
  | .countOrder => "invalid repetition count range, the start must be <= the end"
  | .countDecimal => "repetition quantifier expects a valid decimal"
  | .unclosedCount => "unclosed counted repetition"
  | .nothingToRepeat => "repetition operator missing expression"
  | .boundaryUnclosed =>
      "special word boundary assertion is either unclosed or contains an invalid character"
  | .boundaryUnknown =>
      "unrecognized special word boundary assertion, valid choices are: start, end, start-half " ++
        "or end-half"
  | .boundaryOrCount =>
      "found either the beginning of a special word boundary or a bounded repetition on a \\b " ++
        "with an opening brace, but no closing brace"
  | .propertyName => "invalid Unicode character class"
  | .backreference => "backreferences are not supported"
  | .lookAround => "look-around, including look-ahead and look-behind, is not supported"
  | .unicodeForbidden => "Unicode not allowed here"
  | .invalidBytes => "pattern can match invalid UTF-8"
  | .unknownProperty => "Unicode property not found"
  | .unknownPropertyValue => "Unicode property value not found"

/-- The part that was read before. -/
def FaultKind.first? : FaultKind → Option Span
  | .duplicateFlag first | .repeatedNegation first | .duplicateName first => some first
  | _ => none

/-- A fault. -/
structure Fault where
  /-- Where it shows. -/
  span : Span
  /-- Its cause. -/
  kind : FaultKind
deriving DecidableEq, Repr

/-- Carets under some parts, from left to right.  `column` is the place where
the line goes on.  Every part gets at least one caret. -/
def carets : (column : Nat) → List Span → List Char
  | _, [] => []
  | column, s :: rest =>
      let width := max 1 (s.stop - s.start)
      List.replicate (s.start - column) ' ' ++ List.replicate width '^' ++
        carets (max column s.start + width) rest

/-- The parts to point at, from left to right. -/
def Fault.spans (f : Fault) : List Span :=
  match f.kind.first? with
  | none => [f.span]
  | some first =>
      if first.start < f.span.start ∨ first.start = f.span.start ∧ first.stop ≤ f.span.stop then
        [first, f.span]
      else [f.span, first]

/-- The message for a fault of a pattern. -/
def Fault.message (f : Fault) (pattern : String) : String :=
  "regex parse error:\n    " ++ pattern ++ "\n    " ++ String.ofList (carets 0 f.spans) ++
    "\nerror: " ++ f.kind.text

end IdlModel.Pattern
