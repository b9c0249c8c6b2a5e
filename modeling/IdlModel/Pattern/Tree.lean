import IdlModel.Pattern.Fault

/-!
# Written patterns

A pattern as it is written, before its flags are applied.  Every part keeps the
span where it stands, since what a part means may turn out to be a fault only
when the flags are known.
-/

namespace IdlModel.Pattern

/-- A single character. -/
structure Literal where
  /-- Where it stands. -/
  span : Span
  /-- The character. -/
  char : Char
  /-- Whether it is written as `\x` with two digits, so that it can be a byte. -/
  isByte : Bool := false
deriving Repr

/-- A flag. -/
inductive Flag where
  /-- `i`: case does not count. -/
  | caseless
  /-- `m`: `^` and `$` hold at every line. -/
  | multiLine
  /-- `s`: a dot takes a line feed too. -/
  | dotAll
  /-- `U`: repetitions are lazy. -/
  | swapGreed
  /-- `u`: classes are those of Unicode. -/
  | unicode
  /-- `R`: a line may end in a carriage return and a line feed. -/
  | carriageReturn
  /-- `x`: blanks and comments are left out. -/
  | ignoreBlank
deriving DecidableEq, Repr

/-- The letter of a flag. -/
def Flag.ofChar? : Char → Option Flag
  | 'i' => some .caseless
  | 'm' => some .multiLine
  | 's' => some .dotAll
  | 'U' => some .swapGreed
  | 'u' => some .unicode
  | 'R' => some .carriageReturn
  | 'x' => some .ignoreBlank
  | _ => none

/-- Flags with what each is set to. -/
abbrev FlagChanges := List (Flag × Bool)

/-- An assertion about a place. -/
inductive Assertion where
  | lineStart | lineEnd
  | textStart | textEnd
  | boundary | notBoundary
  | wordStart | wordEnd
  /-- No word part stands before the place. -/
  | wordStartHalf
  /-- No word part stands behind the place. -/
  | wordEndHalf
deriving DecidableEq, Repr

/-- The classes with a letter of their own. -/
inductive BasicClass where
  | digit | blank | wordPart
deriving DecidableEq, Repr

/-- The classes between `[:` and `:]`. -/
inductive PosixClass where
  | alnum | alpha | ascii | blank | cntrl | digit | graph | lower | print | punct | space | upper
  | word | xdigit
deriving DecidableEq, Repr

/-- The class of a name. -/
def PosixClass.ofName? : String → Option PosixClass
  | "alnum" => some .alnum
  | "alpha" => some .alpha
  | "ascii" => some .ascii
  | "blank" => some .blank
  | "cntrl" => some .cntrl
  | "digit" => some .digit
  | "graph" => some .graph
  | "lower" => some .lower
  | "print" => some .print
  | "punct" => some .punct
  | "space" => some .space
  | "upper" => some .upper
  | "word" => some .word
  | "xdigit" => some .xdigit
  | _ => none

/-- A property as it is asked for. -/
inductive PropertyQuery where
  | name (name : String)
  | value (name value : String)
deriving Repr

/-- An operation on two classes. -/
inductive ClassOperation where
  | intersection | difference | symmetricDifference
deriving DecidableEq, Repr

/-- What stands in a class between brackets. -/
inductive ClassTree where
  | literal (l : Literal)
  | range (span : Span) (first last : Literal)
  | posix (span : Span) (cls : PosixClass) (negated : Bool)
  | basic (span : Span) (cls : BasicClass) (negated : Bool)
  | property (span : Span) (query : PropertyQuery) (negated : Bool)
  /-- A class in brackets of its own. -/
  | bracket (span : Span) (negated : Bool) (content : ClassTree)
  /-- Several items side by side, or none. -/
  | union (span : Span) (items : List ClassTree)
  | operation (span : Span) (op : ClassOperation) (left right : ClassTree)
deriving Repr, Inhabited

/-- Where a part of a class stands. -/
def ClassTree.span : ClassTree → Span
  | literal l => l.span
  | range span .. | posix span .. | basic span .. | property span .. | bracket span ..
  | union span .. | operation span .. => span

/-- A written pattern. -/
inductive Tree where
  | empty (span : Span)
  /-- Flags for the rest of the group. -/
  | flags (span : Span) (changes : FlagChanges)
  | literal (l : Literal)
  | dot (span : Span)
  | assertion (span : Span) (kind : Assertion)
  | basic (span : Span) (cls : BasicClass) (negated : Bool)
  | property (span : Span) (query : PropertyQuery) (negated : Bool)
  /-- A class between brackets. -/
  | bracket (span : Span) (negated : Bool) (content : ClassTree)
  /-- At least `least` times, and at most `most` times if that is given. -/
  | repetition (span : Span) (least : Nat) (most : Option Nat) (part : Tree)
  /-- A group, with flags for what is in it. -/
  | group (span : Span) (changes : FlagChanges) (part : Tree)
  | alternation (span : Span) (options : List Tree)
  | sequence (span : Span) (parts : List Tree)
deriving Repr, Inhabited

/-- Where a part of a pattern stands. -/
def Tree.span : Tree → Span
  | literal l => l.span
  | empty span | flags span .. | dot span | assertion span .. | basic span .. | property span ..
  | bracket span .. | repetition span .. | group span .. | alternation span ..
  | sequence span .. => span

/-! ## Depth

A class, a repetition, a group, an alternation, a sequence, a union of items
and an operation each count as one level.
-/

namespace ClassTree

mutual
/-- The first part, from the outside, that lies deeper than `room` levels. -/
def tooDeep? (room : Nat) : ClassTree → Option Span
  | literal _ | range .. | posix .. | basic .. | property .. | union _ [] => none
  | bracket span _ content =>
      match room with
      | 0 => some span
      | room + 1 => content.tooDeep? room
  | union span (item :: items) =>
      match room with
      | 0 => some span
      | room + 1 => anyTooDeep? room (item :: items)
  | operation span _ left right =>
      match room with
      | 0 => some span
      | room + 1 => left.tooDeep? room <|> right.tooDeep? room

/-- The first such part in a list. -/
def anyTooDeep? (room : Nat) : List ClassTree → Option Span
  | [] => none
  | item :: items => item.tooDeep? room <|> anyTooDeep? room items
end

end ClassTree

namespace Tree

mutual
/-- The first part, from the outside, that lies deeper than `room` levels. -/
def tooDeep? (room : Nat) : Tree → Option Span
  | empty _ | flags .. | literal _ | dot _ | assertion .. | basic .. | property .. => none
  | bracket span _ content =>
      match room with
      | 0 => some span
      | room + 1 => content.tooDeep? room
  | repetition span _ _ part | group span _ part =>
      match room with
      | 0 => some span
      | room + 1 => part.tooDeep? room
  | alternation span parts | sequence span parts =>
      match room with
      | 0 => some span
      | room + 1 => anyTooDeep? room parts

/-- The first such part in a list. -/
def anyTooDeep? (room : Nat) : List Tree → Option Span
  | [] => none
  | part :: parts => part.tooDeep? room <|> anyTooDeep? room parts
end

end Tree

end IdlModel.Pattern
