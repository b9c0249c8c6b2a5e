import IdlModel.Pattern.Tree
import IdlModel.Text.CodeRange
import IdlModel.Text.Letter

/-!
# Reading patterns

`Tree.read` turns the text of a pattern into a tree, or finds its first fault.

The reader goes through the text once, from left to right.  Groups and
alternations that are still open stand on a stack, and so do open classes and
the operations in them.  `|` binds weaker than a sequence, and the operations
`&&`, `--` and `~~` of a class bind equally and to the left.

Under the flag `x` blanks and comments between the parts are skipped.  The flag
holds until its group ends.

Every round of a loop takes a character, so a loop that runs once for every
character and once more never runs out of rounds.
-/

namespace IdlModel.Pattern

open Text (hexDigit? isAscii isAsciiAlphanumeric isAsciiLetter isAsciiDigit isAlphabetic
  isAlphanumeric isBlank)

/-! ## The cursor -/

/-- Where the reader is. -/
structure Cursor where
  /-- The text that is left. -/
  rest : List Char
  /-- How many characters were taken. -/
  place : Nat := 0
  /-- Whether blanks and comments are skipped. -/
  skips : Bool := false
  /-- The names of groups so far. -/
  names : List (String × Span) := []

/-- A step of the reader. -/
abbrev ReadM := EStateM Fault Cursor

/-- The text behind blanks and comments, and the number of characters skipped.
A comment goes from `#` to the end of its line. -/
def skipFrom : (inComment : Bool) → List Char → Nat → List Char × Nat
  | _, [], n => ([], n)
  | true, c :: cs, n => skipFrom (c != '\n') cs (n + 1)
  | false, c :: cs, n =>
      if isBlank c then skipFrom false cs (n + 1)
      else if c = '#' then skipFrom true cs (n + 1)
      else (c :: cs, n)

namespace ReadM

/-- The number of characters taken. -/
def place : ReadM Nat := return (← get).place

/-- The next character. -/
def next? : ReadM (Option Char) := return (← get).rest.head?

/-- Whether the next character is `c`. -/
def nextIs (c : Char) : ReadM Bool := return (← next?) == some c

/-- The span of the next character. -/
def nextSpan : ReadM Span := do let n ← place; return ⟨n, n + 1⟩

/-- The empty span before the next character. -/
def gap : ReadM Span := do let n ← place; return ⟨n, n⟩

/-- The span from a place to here. -/
def since (start : Nat) : ReadM Span := return ⟨start, ← place⟩

/-- Refuse the pattern. -/
def fail {α : Type} (span : Span) (kind : FaultKind) : ReadM α := throw ⟨span, kind⟩

/-- Take the next character. -/
def bump : ReadM Unit :=
  modify fun s =>
    match s.rest with
    | [] => s
    | _ :: rest => { s with rest, place := s.place + 1 }

/-- Skip blanks and comments, if the flag `x` holds. -/
def skip : ReadM Unit :=
  modify fun s =>
    if s.skips then
      let (rest, n) := skipFrom false s.rest 0
      { s with rest, place := s.place + n }
    else s

/-- Take the next character and what is to be skipped behind it.  The result is
the character that follows. -/
def bumpSkip : ReadM (Option Char) := do
  bump
  skip
  next?

/-- Take a word if it stands here. -/
def bumpIf (word : List Char) : ReadM Bool := do
  if word.isPrefixOf (← get).rest then
    modify fun s => { s with rest := s.rest.drop word.length, place := s.place + word.length }
    return true
  else return false

/-- The character behind the next one. -/
def second? : ReadM (Option Char) := return (← get).rest.tail.head?

/-- The first character behind blanks, where the first `#` counts as a blank
too.  If there is none, the text itself starts it. -/
def behindBlanks? (text : List Char) : Option Char :=
  let rec go : (marked : Bool) → List Char → Option Char
    | _, [] => text.head?
    | marked, c :: cs =>
        if isBlank c then go marked cs
        else if c = '#' ∧ ¬ marked then go true cs
        else some c
  go false text

/-- The character behind the next one, as far as the flag `x` looks. -/
def secondSkip? : ReadM (Option Char) := do
  let s ← get
  return if s.skips then behindBlanks? s.rest.tail else s.rest.tail.head?

/-- Run a step up to `rounds` times, until it gives a result. -/
def loop {α β : Type} (step : α → ReadM (α ⊕ β)) : (rounds : Nat) → α → ReadM β
  | 0, _ => do fail (← gap) .unclosedGroup
  | rounds + 1, a => do
      match ← step a with
      | .inl a => loop step rounds a
      | .inr b => return b

/-- Run a step until it gives a result.  Every round takes a character. -/
def untilDone {α β : Type} (a : α) (step : α → ReadM (α ⊕ β)) : ReadM β := do
  loop step ((← get).rest.length + 1) a

/-- Take characters while they pass, and skip behind each. -/
def takeSkip (pass : Char → Bool) : ReadM (List Char) :=
  untilDone [] fun taken => do
    match ← next? with
    | some c =>
        if pass c then
          let _ ← bumpSkip
          return .inl (c :: taken)
        else return .inr taken.reverse
    | none => return .inr taken.reverse

/-! ## Numbers -/

/-- The value of decimal digits. -/
def decimal (digits : List Char) : Nat :=
  digits.foldl (fun n c => 10 * n + (c.toNat - '0'.toNat)) 0

/-- The bound of the counts of a repetition. -/
def countBound : Nat := UInt32.size

/-- Read a count between blanks. -/
def readCount : ReadM Nat := do
  let blanks := (← get).rest.takeWhile isBlank
  let _ ← bumpIf blanks
  let start ← place
  let digits ← takeSkip isAsciiDigit
  let span ← since start
  let _ ← takeSkip isBlank
  if digits.isEmpty then fail span .countDecimal
  else if countBound ≤ decimal digits then fail span .decimalInvalid
  else return decimal digits

/-- The character of hexadecimal digits. -/
def hexChar? (digits : List Char) : Option Char := do
  let n ← Text.hexNumber? digits
  if n.isValidChar then some (Char.ofNat n) else none

/-- Read a fixed number of hexadecimal digits. -/
def readHexDigits (count : Nat) : ReadM Char := do
  let first ← place
  let rec go : (left : Nat) → List Char → ReadM (List Char)
    | 0, taken => return taken.reverse
    | left + 1, taken => do
        match ← next? with
        | none => do fail (← gap) .escapeEnd
        | some c =>
            if (hexDigit? c).isNone then fail (← nextSpan) .hexDigit
            let _ ← bumpSkip
            go left (c :: taken)
  let digits ← go count []
  match hexChar? digits with
  | some c => return c
  | none => fail (← since first) .hexInvalid

/-- Read hexadecimal digits between braces. -/
def readHexBraces : ReadM Char := do
  let brace ← place
  let digits ← untilDone [] fun taken => do
    match ← bumpSkip with
    | none => do fail (← since brace) .escapeEnd
    | some '\x7d' => return .inr taken.reverse
    | some c =>
        if (hexDigit? c).isNone then fail (← nextSpan) .hexDigit
        return .inl (c :: taken)
  let closing ← place
  let _ ← bumpSkip
  if digits.isEmpty then fail (← since brace) .hexEmpty
  match hexChar? digits with
  | some c => return c
  | none => fail ⟨brace + 1, closing⟩ .hexInvalid

/-- Read a character by its number.  The letter that tells the number of digits
is next. -/
def readHex (start : Nat) (count : Nat) : ReadM Literal := do
  match ← bumpSkip with
  | none => do fail (← gap) .escapeEnd
  | some '\x7b' => do
      let c ← readHexBraces
      return { span := ← since start, char := c }
  | some _ => do
      let c ← readHexDigits count
      return { span := ← since start, char := c, isByte := count == 2 }

/-! ## Escapes -/

/-- Split a text at the first occurrence of a word. -/
def cutAt? (word : List Char) : List Char → Option (List Char × List Char)
  | [] => none
  | c :: cs =>
      if word.isPrefixOf (c :: cs) then some ([], (c :: cs).drop word.length)
      else (cutAt? word cs).map fun (a, b) => (c :: a, b)

/-- A property between braces: a name, or a name and a value with `!=`, `:` or
`=` between them.  The flag says whether it is negated. -/
def queryOf (text : List Char) : PropertyQuery × Bool :=
  match cutAt? ['!', '='] text, cutAt? [':'] text, cutAt? ['='] text with
  | some (a, b), _, _ => (.value (String.ofList a) (String.ofList b), true)
  | none, some (a, b), _ | none, none, some (a, b) =>
      (.value (String.ofList a) (String.ofList b), false)
  | none, none, none => (.name (String.ofList text), false)

/-- Read a property.  Its letter is next. -/
def readProperty : ReadM (PropertyQuery × Bool) := do
  let negated ← nextIs 'P'
  match ← bumpSkip with
  | none => do fail (← gap) .escapeEnd
  | some '\x7b' => do
      let text ← untilDone [] fun taken => do
        match ← bumpSkip with
        | none => do fail (← gap) .escapeEnd
        | some '\x7d' => return .inr taken.reverse
        | some c => return .inl (c :: taken)
      bump
      let (query, differs) := queryOf text
      return (query, negated != differs)
  | some '\\' => do fail (← nextSpan) .propertyName
  | some c => do
      let _ ← bumpSkip
      return (.name c.toString, negated)

/-- The words of the special word boundaries. -/
def boundaryOf? : List Char → Option Assertion
  | ['s', 't', 'a', 'r', 't'] => some .wordStart
  | ['e', 'n', 'd'] => some .wordEnd
  | ['s', 't', 'a', 'r', 't', '-', 'h', 'a', 'l', 'f'] => some .wordStartHalf
  | ['e', 'n', 'd', '-', 'h', 'a', 'l', 'f'] => some .wordEndHalf
  | _ => none

/-- Whether a character can be in the word of a special word boundary. -/
def isBoundaryPart (c : Char) : Bool := isAsciiLetter c || c == '-'

/-- Read what follows `\b`: a word between braces, or nothing if the braces are
those of a count. -/
def readBoundary (start : Nat) : ReadM Assertion := do
  if !(← nextIs '\x7b') then return .boundary
  let saved ← get
  let brace ← place
  match ← bumpSkip with
  | none => do fail (← since start) .boundaryOrCount
  | some c =>
      if !isBoundaryPart c then
        set saved
        return .boundary
      let first ← place
      let word ← takeSkip isBoundaryPart
      if !(← nextIs '\x7d') then fail (← since brace) .boundaryUnclosed
      let last ← place
      bump
      match boundaryOf? word with
      | some kind => return kind
      | none => fail ⟨first, last⟩ .boundaryUnknown

/-- The characters with a meaning of their own. -/
def isMeta (c : Char) : Bool := "\\.+*?()|[]\x7b\x7d^$#&-~".toList.contains c

/-- Whether an escaped character stands for itself. -/
def isItself (c : Char) : Bool :=
  isMeta c || (isAscii c && !isAsciiAlphanumeric c && c != '<' && c != '>')

/-- The characters that an escape stands for. -/
def controlOf? : Char → Option Char
  | 'a' => some '\x07'
  | 'f' => some '\x0c'
  | 't' => some '\t'
  | 'n' => some '\n'
  | 'r' => some '\r'
  | 'v' => some '\x0b'
  | _ => none

/-- The assertions that an escape stands for. -/
def assertionOf? : Char → Option Assertion
  | 'A' => some .textStart
  | 'z' => some .textEnd
  | 'B' => some .notBoundary
  | '<' => some .wordStart
  | '>' => some .wordEnd
  | _ => none

/-- The classes that an escape stands for, and whether they are negated. -/
def basicOf? : Char → Option (BasicClass × Bool)
  | 'd' => some (.digit, false)
  | 'D' => some (.digit, true)
  | 's' => some (.blank, false)
  | 'S' => some (.blank, true)
  | 'w' => some (.wordPart, false)
  | 'W' => some (.wordPart, true)
  | _ => none

/-- The numbers of digits behind `\x`, `\u` and `\U`. -/
def hexCount? : Char → Option Nat
  | 'x' => some 2
  | 'u' => some 4
  | 'U' => some 8
  | _ => none

/-- Read an escape.  The backslash is next. -/
def readEscape : ReadM Tree := do
  let start ← place
  bump
  match ← next? with
  | none => do fail (← since start) .escapeEnd
  | some c =>
      if isAsciiDigit c then fail ⟨start, (← place) + 1⟩ .backreference
      match hexCount? c with
      | some count => return .literal (← readHex start count)
      | none => pure ()
      if c = 'p' ∨ c = 'P' then
        let (query, negated) ← readProperty
        return .property (← since start) query negated
      bump
      let span ← since start
      match basicOf? c, controlOf? c, assertionOf? c with
      | some (cls, negated), _, _ => return .basic span cls negated
      | _, some control, _ => return .literal { span, char := control }
      | _, _, some kind => return .assertion span kind
      | _, _, _ =>
          if isItself c then return .literal { span, char := c }
          else if c = 'b' then
            let kind ← readBoundary start
            return .assertion (← since start) kind
          else fail span .escapeUnknown

/-! ## Classes -/

/-- The items of a class so far, the last one first, and where they start. -/
structure OpenUnion where
  /-- Where the union stands if it stays empty. -/
  start : Nat
  /-- The items, the last one first. -/
  items : List ClassTree := []

/-- Add an item. -/
def OpenUnion.push (u : OpenUnion) (item : ClassTree) : OpenUnion := { u with items := item :: u.items }

/-- The finished union.  A single item stands for itself. -/
def OpenUnion.close (u : OpenUnion) : ClassTree :=
  match u.items.reverse with
  | [] => .union ⟨u.start, u.start⟩ []
  | [item] => item
  | first :: rest =>
      .union ⟨first.span.start, ((u.items.head?.map (·.span)).getD first.span).stop⟩ (first :: rest)

/-- What is still open in a class. -/
inductive ClassFrame where
  /-- A class, with the items before it. -/
  | bracket (before : OpenUnion) (span : Span) (negated : Bool)
  /-- An operation with its left side. -/
  | operation (op : ClassOperation) (left : ClassTree)

/-- The fault of a class that does not end: its innermost open bracket. -/
def failUnclosed {α : Type} (stack : List ClassFrame) : ReadM α := do
  let spans := stack.filterMap fun
    | .bracket _ span _ => some span
    | .operation .. => none
  fail (spans.head?.getD (← gap)) .unclosedClass

/-- Finish the operation on top of the stack, if there is one. -/
def closeOperation (right : ClassTree) : List ClassFrame → ClassTree × List ClassFrame
  | .operation op left :: stack => (.operation ⟨left.span.start, right.span.stop⟩ op left right, stack)
  | stack => (right, stack)

/-- Read the start of a class: the bracket, `^`, and the characters `-` and `]`
that stand for themselves there. -/
def readClassStart : ReadM (Span × Bool × OpenUnion) := do
  let start ← place
  if (← bumpSkip).isNone then fail (← since start) .unclosedClass
  let negated ← nextIs '^'
  if negated then
    if (← bumpSkip).isNone then fail (← since start) .unclosedClass
  let items : OpenUnion := { start := ← place }
  let items ← untilDone items fun items => do
    if ← nextIs '-' then
      let items := items.push (.literal { span := ← nextSpan, char := '-' })
      if (← bumpSkip).isNone then fail ⟨start, start⟩ .unclosedClass
      return .inl items
    else return .inr items
  if items.items.isEmpty && (← nextIs ']') then
    let items := items.push (.literal { span := ← nextSpan, char := ']' })
    if (← bumpSkip).isNone then fail (← since start) .unclosedClass
    return (← since start, negated, items)
  else return (← since start, negated, items)

/-- Read a class between `[:` and `:]`, or take nothing. -/
def readPosix? : ReadM (Option ClassTree) := do
  let start ← place
  let rest := (← get).rest
  match rest with
  | '[' :: ':' :: text =>
      let (negated, text) := match text with
        | '^' :: text => (true, text)
        | _ => (false, text)
      let name := text.takeWhile (· != ':')
      match PosixClass.ofName? (String.ofList name), text.drop name.length with
      | some cls, ':' :: ']' :: after => do
          modify fun s => { s with rest := after, place := s.place + (rest.length - after.length) }
          return some (.posix (← since start) cls negated)
      | _, _ => return none
  | _ => return none

/-- Read an item of a class, without a range. -/
def readClassPart : ReadM Tree := do
  match ← next? with
  | some '\\' => readEscape
  | some c => do
      let span ← nextSpan
      bump
      return .literal { span, char := c }
  | none => do fail (← gap) .unclosedClass

/-- A part as an item of a class. -/
def itemOf : Tree → ReadM ClassTree
  | .literal l => return .literal l
  | .basic span cls negated => return .basic span cls negated
  | .property span query negated => return .property span query negated
  | part => fail part.span .classEscape

/-- A part as a bound of a range. -/
def boundOf : Tree → ReadM Literal
  | .literal l => return l
  | part => fail part.span .classRangeBound

/-- Read an item of a class. -/
def readClassItem (stack : List ClassFrame) : ReadM ClassTree := do
  let first ← readClassPart
  skip
  if (← next?).isNone then failUnclosed stack
  let second? ← secondSkip?
  if !(← nextIs '-') || second? == some ']' || second? == some '-' then itemOf first
  else
    if (← bumpSkip).isNone then failUnclosed stack
    let last ← readClassPart
    let span : Span := ⟨first.span.start, last.span.stop⟩
    let low ← boundOf first
    let high ← boundOf last
    if high.char < low.char then fail span .classRangeOrder
    return .range span low high

/-- The operation that starts here. -/
def operationAt? : ReadM (Option ClassOperation) := do
  match (← get).rest with
  | '&' :: '&' :: _ => return some .intersection
  | '-' :: '-' :: _ => return some .difference
  | '~' :: '~' :: _ => return some .symmetricDifference
  | _ => return none

/-- Read a class.  Its bracket is next. -/
def readClass : ReadM Tree :=
  untilDone (([] : List ClassFrame), ({ start := 0 } : OpenUnion)) fun (stack, items) => do
    skip
    match ← next? with
    | none => failUnclosed stack
    | some '[' => do
        let posix ← if stack.isEmpty then pure none else readPosix?
        match posix with
        | some item => return .inl (stack, items.push item)
        | none => do
            let (span, negated, inner) ← readClassStart
            return .inl (.bracket items span negated :: stack, inner)
    | some ']' => do
        let (content, stack) := closeOperation items.close stack
        bump
        match stack with
        | .bracket before opening negated :: stack => do
            let span ← since opening.start
            match stack with
            | [] => return .inr (.bracket span negated content)
            | _ => return .inl (stack, before.push (.bracket span negated content))
        | _ => failUnclosed stack
    | some _ => do
        match ← operationAt? with
        | some op => do
            bump
            bump
            let (left, stack) := closeOperation items.close stack
            return .inl (.operation op left :: stack, { start := ← place })
        | none => do
            let item ← readClassItem stack
            return .inl (stack, items.push item)

/-! ## Groups -/

/-- Read flags up to `:` or `)`. -/
def readFlags : ReadM FlagChanges := do
  -- the flags so far with their spans, and the dash that was read last
  let read ← untilDone (([] : List (Option Flag × Span)), (none : Option Span)) fun (read, dash) => do
    match ← next? with
    | some ':' | some ')' =>
        match dash with
        | some span => fail span .danglingNegation
        | none => return .inr read.reverse
    | some c => do
        let span ← nextSpan
        let item : Option Flag ←
          if c = '-' then pure none
          else match Flag.ofChar? c with
            | some flag => pure (some flag)
            | none => fail span .unknownFlag
        match read.find? (·.1 == item), item with
        | some (_, first), none => fail span (.repeatedNegation first)
        | some (_, first), some _ => fail span (.duplicateFlag first)
        | none, _ => pure ()
        bump
        if (← next?).isNone then fail (← gap) .flagEnd
        return .inl ((item, span) :: read, if item.isNone then some span else none)
    | none => do fail (← gap) .flagEnd
  let on := (read.takeWhile (·.1.isSome)).filterMap (·.1)
  let off := (read.dropWhile (·.1.isSome)).filterMap (·.1)
  return on.map (·, true) ++ off.map (·, false)

/-- Whether a character can be in the name of a group. -/
def isNamePart (first : Bool) (c : Char) : Bool :=
  if first then c == '_' || isAlphabetic c
  else c == '_' || c == '.' || c == '[' || c == ']' || isAlphanumeric c

/-- Read the name of a group and its closing `>`. -/
def readGroupName : ReadM Unit := do
  if (← next?).isNone then fail (← gap) .nameEnd
  let start ← place
  let name ← untilDone [] fun taken => do
    match ← next? with
    | none => do fail (← gap) .nameEnd
    | some '>' => return .inr (String.ofList taken.reverse)
    | some c =>
        if !isNamePart taken.isEmpty c then fail (← nextSpan) .nameCharacter
        bump
        return .inl (c :: taken)
  let span ← since start
  bump
  if name.isEmpty then fail ⟨start, start⟩ .emptyName
  match (← get).names.lookup name with
  | some first => fail span (.duplicateName first)
  | none => modify fun s => { s with names := (name, span) :: s.names }

/-- The start of a group: flags for what is in it, or flags for the rest of the
group around it. -/
inductive GroupStart where
  | inside (opening : Span) (changes : FlagChanges)
  | directive (span : Span) (changes : FlagChanges)

/-- Read the start of a group.  Its parenthesis is next. -/
def readGroupStart : ReadM GroupStart := do
  let opening ← nextSpan
  bump
  skip
  for word in ["?=", "?!", "?<=", "?<!"] do
    if ← bumpIf word.toList then fail (← since opening.start) .lookAround
  let inner ← gap
  if (← bumpIf ['?', 'P', '<']) || (← bumpIf ['?', '<']) then
    readGroupName
    return .inside opening []
  else if ← bumpIf ['?'] then
    if (← next?).isNone then fail opening .unclosedGroup
    let changes ← readFlags
    let ends ← nextIs ')'
    bump
    if ends then
      if changes.isEmpty then fail inner .nothingToRepeat
      return .directive (← since opening.start) changes
    else return .inside opening changes
  else return .inside opening []

/-! ## Patterns -/

/-- What is still open around a sequence. -/
inductive Frame where
  /-- A group with the parts before it, and whether blanks were skipped there. -/
  | group (start : Nat) (before : List Tree) (opening : Span) (changes : FlagChanges) (skips : Bool)
  /-- An alternation with its options, the last one first. -/
  | alternation (start : Nat) (options : List Tree)

/-- The sequence of some parts, of which the last one comes first. -/
def sequenceOf (span : Span) (parts : List Tree) : Tree :=
  match parts.reverse with
  | [] => .empty span
  | [part] => part
  | parts => .sequence span parts

/-- The part that an operator repeats, taken from the end of a sequence. -/
def repeated (parts : List Tree) : ReadM (Tree × List Tree) := do
  match parts with
  | [] | .empty _ :: _ | .flags .. :: _ => do fail (← gap) .nothingToRepeat
  | part :: parts => return (part, parts)

/-- Repeat the last part of a sequence. -/
def readRepetition (parts : List Tree) (least : Nat) (most : Option Nat) : ReadM (List Tree) := do
  let (part, parts) ← repeated parts
  bump
  if ← nextIs '?' then bump
  return .repetition ⟨part.span.start, ← place⟩ least most part :: parts

/-- Repeat the last part of a sequence as often as braces say. -/
def readCounted (parts : List Tree) : ReadM (List Tree) := do
  let start ← place
  let (part, parts) ← repeated parts
  if (← bumpSkip).isNone then fail (← since start) .unclosedCount
  -- a missing count is a fault only where it is needed
  let least : Except Fault Nat ← fun s =>
    match readCount s with
    | .ok n s => .ok (.ok n) s
    | .error fault s => .ok (.error fault) s
  let needed (count : Except Fault Nat) : ReadM Nat :=
    match count with
    | .ok n => pure n
    | .error fault => throw fault
  if (← next?).isNone then fail (← since start) .unclosedCount
  let (least, most) ←
    if ← nextIs ',' then do
      match ← bumpSkip with
      | none => fail (← since start) .unclosedCount
      | some '\x7d' => pure (← needed least, none)
      | some _ => do
          let least ← needed least
          let most ← readCount
          pure (least, some most)
    else do
      let n ← needed least
      pure (n, some n)
  if !(← nextIs '\x7d') then fail (← since start) .unclosedCount
  if (← bumpSkip) == some '?' then bump
  if most.any (· < least) then fail (← since start) .countOrder
  return .repetition ⟨part.span.start, ← place⟩ least most part :: parts

/-- Read a single part that is neither a group nor a class nor an operator. -/
def readPart : ReadM Tree := do
  let span ← nextSpan
  match ← next? with
  | some '\\' => readEscape
  | some '.' => do bump; return .dot span
  | some '^' => do bump; return .assertion span .lineStart
  | some '$' => do bump; return .assertion span .lineEnd
  | some c => do bump; return .literal { span, char := c }
  | none => fail span .unclosedGroup

/-- The sequence that is being read: where it starts, and its parts, the last
one first. -/
structure OpenSequence where
  /-- Where it starts. -/
  start : Nat := 0
  /-- Its parts. -/
  parts : List Tree := []

/-- A new sequence that starts here. -/
def newSequence : ReadM OpenSequence := return { start := ← place }

/-- The finished content of a group: the sequence, or the alternation that it
is the last option of.  The rest of the stack comes with it. -/
def closeContent (seq : OpenSequence) (stack : List Frame) : ReadM (Tree × List Frame) := do
  let stop ← place
  let last := sequenceOf ⟨seq.start, stop⟩ seq.parts
  match stack with
  | .alternation start options :: stack =>
      return (.alternation ⟨start, stop⟩ (last :: options).reverse, stack)
  | stack => return (last, stack)

/-- Set whether blanks and comments are skipped. -/
def setSkips (skips : Bool) : ReadM Unit := modify fun s => { s with skips }

/-- Read a whole pattern. -/
def readPattern : ReadM Tree :=
  untilDone (([] : List Frame), ({} : OpenSequence)) fun (stack, seq) => do
    skip
    match ← next? with
    | none => do
        match ← closeContent seq stack with
        | (tree, []) => return .inr tree
        | (_, .group _ _ opening .. :: _) => fail opening .unclosedGroup
        | (_, .alternation .. :: _) => do fail (← gap) .unclosedGroup
    | some '(' => do
        match ← readGroupStart with
        | .directive span changes => do
            setSkips ((changes.lookup .ignoreBlank).getD (← get).skips)
            return .inl (stack, { seq with parts := .flags span changes :: seq.parts })
        | .inside opening changes => do
            let skips := (← get).skips
            setSkips ((changes.lookup .ignoreBlank).getD skips)
            return .inl (.group seq.start seq.parts opening changes skips :: stack, ← newSequence)
    | some ')' => do
        let closing ← nextSpan
        match ← closeContent seq stack with
        | (content, .group start before opening changes skips :: stack) => do
            setSkips skips
            bump
            let group : Tree := .group (← since opening.start) changes content
            return .inl (stack, { start, parts := group :: before })
        | _ => fail closing .unopenedGroup
    | some '|' => do
        let option := sequenceOf (← since seq.start) seq.parts
        bump
        let stack := match stack with
          | .alternation start options :: stack => .alternation start (option :: options) :: stack
          | stack => .alternation seq.start [option] :: stack
        return .inl (stack, ← newSequence)
    | some '[' => do
        let cls ← readClass
        return .inl (stack, { seq with parts := cls :: seq.parts })
    | some '?' => do return .inl (stack, { seq with parts := ← readRepetition seq.parts 0 (some 1) })
    | some '*' => do return .inl (stack, { seq with parts := ← readRepetition seq.parts 0 none })
    | some '+' => do return .inl (stack, { seq with parts := ← readRepetition seq.parts 1 none })
    | some '\x7b' => do return .inl (stack, { seq with parts := ← readCounted seq.parts })
    | some _ => do
        let part ← readPart
        return .inl (stack, { seq with parts := part :: seq.parts })

end ReadM

/-- The deepest nesting of a pattern. -/
def depthLimit : Nat := 250

/-- Read a pattern. -/
def Tree.read (text : String) : Except Fault Tree :=
  match ReadM.readPattern { rest := text.toList } with
  | .error fault _ => .error fault
  | .ok tree _ =>
      match tree.tooDeep? depthLimit with
      | some span => .error ⟨span, .tooDeep depthLimit⟩
      | none => .ok tree

end IdlModel.Pattern
