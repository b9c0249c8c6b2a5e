import IdlModel.Pattern.Expr
import IdlModel.Pattern.Tree

/-!
# The meaning of written patterns

`Tree.expr` applies the flags of a pattern and turns it into an expression.
Flags that stand alone hold up to the end of their group, also behind a `|`.

Without the flag `u` the classes are those of ASCII, and a place of the pattern
matches a byte.  As texts are made of characters, a class must then stay in
ASCII, and what could match a part of a character is refused.

Case is folded in a whole class, before the class is negated.
-/

namespace IdlModel.Pattern

/-- The flags that matter for matching. -/
structure Mode where
  caseless : Bool := false
  multiLine : Bool := false
  dotAll : Bool := false
  unicode : Bool := true
  carriageReturn : Bool := false
deriving Repr

/-- Apply changes of flags. -/
def Mode.apply (mode : Mode) (changes : FlagChanges) : Mode :=
  changes.foldl (fun mode (flag, value) =>
    match flag with
    | .caseless => { mode with caseless := value }
    | .multiLine => { mode with multiLine := value }
    | .dotAll => { mode with dotAll := value }
    | .unicode => { mode with unicode := value }
    | .carriageReturn => { mode with carriageReturn := value }
    | .swapGreed | .ignoreBlank => mode) mode

namespace Mode

/-- Refuse a part of a pattern. -/
def refuse {α : Type} (span : Span) (kind : FaultKind) : Except Fault α := .error ⟨span, kind⟩

/-- Fold the case of a set, if the flags ask for it. -/
def fold (mode : Mode) (s : CharSet) : CharSet :=
  if !mode.caseless then s else if mode.unicode then .folded s else .foldedAscii s

/-- Negate a set, if asked to.  Without the flag `u` the result would hold
parts of characters. -/
def negate (mode : Mode) (span : Span) (negated : Bool) (s : CharSet) : Except Fault CharSet :=
  if !negated then .ok s
  else if mode.unicode then .ok (.compl s)
  else refuse span .invalidBytes

/-! ## Classes -/

/-- The characters of a named class. -/
def posixSet : PosixClass → CharSet
  | .alnum => .ranges [('0', '9'), ('A', 'Z'), ('a', 'z')]
  | .alpha => .ranges [('A', 'Z'), ('a', 'z')]
  | .ascii => .range '\x00' '\x7f'
  | .blank => .ranges [('\t', '\t'), (' ', ' ')]
  | .cntrl => .ranges [('\x00', '\x1f'), ('\x7f', '\x7f')]
  | .digit => .range '0' '9'
  | .graph => .range '!' '~'
  | .lower => .range 'a' 'z'
  | .print => .range ' ' '~'
  | .punct => .ranges [('!', '/'), (':', '@'), ('[', '\x60'), ('\x7b', '~')]
  | .space => .ranges [('\t', '\r'), (' ', ' ')]
  | .upper => .range 'A' 'Z'
  | .word => .ranges [('0', '9'), ('A', 'Z'), ('_', '_'), ('a', 'z')]
  | .xdigit => .ranges [('0', '9'), ('A', 'F'), ('a', 'f')]

/-- The characters of a class with a letter of its own. -/
def basicSet (mode : Mode) : BasicClass → CharSet
  | .digit => if mode.unicode then .digit else posixSet .digit
  | .blank => if mode.unicode then .property .blank else posixSet .space
  | .wordPart => if mode.unicode then .wordPart else posixSet .word

/-- The characters with a property. -/
def propertySet (mode : Mode) (span : Span) (query : PropertyQuery) (negated : Bool) :
    Except Fault CharSet :=
  if !mode.unicode then refuse span .unicodeForbidden
  else
    let found := match query with
      | .name name => Property.ofName name
      | .value name value => Property.ofValue name value
    match found with
    | .ok p => mode.negate span negated (mode.fold (.property p))
    | .error kind => refuse span kind

/-- A literal in a class.  Without the flag `u` it is a byte of its own. -/
def classLiteral (mode : Mode) (l : Literal) : Except Fault Char :=
  if mode.unicode || Text.isAscii l.char then .ok l.char
  else if l.isByte then refuse l.span .invalidBytes
  else refuse l.span .unicodeForbidden

/-- The result of an operation on two sets. -/
def operate : ClassOperation → CharSet → CharSet → CharSet
  | .intersection => .inter
  | .difference => .diff
  | .symmetricDifference => .symmDiff

mutual
/-- The characters of a class. -/
def classSet (mode : Mode) : ClassTree → Except Fault CharSet
  | .literal l => do return .single (← mode.classLiteral l)
  | .range _ first last => do return .range (← mode.classLiteral first) (← mode.classLiteral last)
  | .posix span cls negated => mode.negate span negated (mode.fold (posixSet cls))
  | .basic span cls negated => mode.negate span negated (mode.basicSet cls)
  | .property span query negated => mode.propertySet span query negated
  | .bracket span negated content => do
      mode.negate span negated (mode.fold (← mode.classSet content))
  | .union _ items => mode.unionSet items
  | .operation _ op left right => do
      let left ← mode.classSet left
      let right ← mode.classSet right
      return operate op (mode.fold left) (mode.fold right)

/-- The characters of some items. -/
def unionSet (mode : Mode) : List ClassTree → Except Fault CharSet
  | [] => .ok .empty
  | item :: items => do
      let first ← mode.classSet item
      return .union first (← mode.unionSet items)
end

/-! ## Parts -/

/-- A literal.  Without the flag `u` only ASCII has two cases. -/
def literal (mode : Mode) (l : Literal) : Except Fault Expr :=
  if !mode.unicode && l.isByte && !Text.isAscii l.char then refuse l.span .invalidBytes
  else .ok (.one (mode.fold (.single l.char)))

/-- A dot. -/
def dot (mode : Mode) (span : Span) : Except Fault Expr :=
  if !mode.unicode then refuse span .invalidBytes
  else if mode.dotAll then .ok (.one (.property .any))
  else if mode.carriageReturn then .ok (.one (.compl (.ranges [('\n', '\n'), ('\r', '\r')])))
  else .ok (.one (.compl (.single '\n')))

/-- An assertion. -/
def assertion (mode : Mode) (kind : Assertion) : Look :=
  let part := mode.basicSet .wordPart
  match kind with
  | .textStart => .textStart
  | .textEnd => .textEnd
  | .lineStart =>
      if !mode.multiLine then .textStart
      else if mode.carriageReturn then .lineStartReturn else .lineStart
  | .lineEnd =>
      if !mode.multiLine then .textEnd
      else if mode.carriageReturn then .lineEndReturn else .lineEnd
  | .boundary => .boundary part
  | .notBoundary => .notBoundary part
  | .wordStart => .wordStart part
  | .wordEnd => .wordEnd part
  | .wordStartHalf => .wordStartHalf part
  | .wordEndHalf => .wordEndHalf part

end Mode

mutual
/-- The meaning of a pattern under some flags, and the flags behind it. -/
def Tree.meaning : Tree → Mode → Except Fault (Expr × Mode)
  | .empty _, mode => .ok (.empty, mode)
  | .flags _ changes, mode => .ok (.empty, mode.apply changes)
  | .literal l, mode => do return (← mode.literal l, mode)
  | .dot span, mode => do return (← mode.dot span, mode)
  | .assertion _ kind, mode => .ok (.look (mode.assertion kind), mode)
  | .basic span cls negated, mode => do
      return (.one (← mode.negate span negated (mode.basicSet cls)), mode)
  | .property span query negated, mode => do
      return (.one (← mode.propertySet span query negated), mode)
  | .bracket span negated content, mode => do
      let s ← mode.classSet content
      return (.one (← mode.negate span negated (mode.fold s)), mode)
  | .repetition _ least most part, mode => do
      let (e, mode) ← part.meaning mode
      return (.times e least most, mode)
  | .group _ changes part, mode => do
      let (e, _) ← part.meaning (mode.apply changes)
      return (e, mode)
  | .alternation _ options, mode => do
      let (es, mode) ← Tree.meanings options mode
      return (.eitherAll es, mode)
  | .sequence _ parts, mode => do
      let (es, mode) ← Tree.meanings parts mode
      return (.seqAll es, mode)

/-- The meanings of some patterns, from left to right. -/
def Tree.meanings : List Tree → Mode → Except Fault (List Expr × Mode)
  | [], mode => .ok ([], mode)
  | part :: parts, mode => do
      let (e, mode) ← part.meaning mode
      let (es, mode) ← Tree.meanings parts mode
      return (e :: es, mode)
end

/-- The expression of a written pattern. -/
def Tree.expr (tree : Tree) : Except Fault Expr := (·.1) <$> tree.meaning {}

end IdlModel.Pattern
