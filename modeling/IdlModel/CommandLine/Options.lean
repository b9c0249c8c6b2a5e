import IdlModel.Text.Letter

/-!
# Arguments of the command line

What the user asks for, read from the arguments one by one.

* `-o`, `--output`, `--log-warning`, `--config` and `--error-limit` take a value
  and may be given once.  `-t` and `--transform` may be given again.
* A value is the next argument, or stands behind `=`, or behind a short option.
  The next argument is no value if it starts with `-`, unless it is `-` itself.
* Behind `--` every argument is an input.
* There is at least one input.  No path is empty.
* `--help` and `--version` count from the place where they stand: nothing behind
  them is looked at.
-/

namespace IdlModel.CommandLine

/-- An option with a value. -/
inductive Switch where
  | output | logWarning | config | transform | errorLimit
deriving DecidableEq, Repr

/-- The option with a long name. -/
def Switch.ofLong? : String → Option Switch
  | "output" => some .output
  | "log-warning" => some .logWarning
  | "config" => some .config
  | "transform" => some .transform
  | "error-limit" => some .errorLimit
  | _ => none

/-- The option with a short name. -/
def Switch.ofShort? : Char → Option Switch
  | 'o' => some .output
  | 't' => some .transform
  | _ => none

/-- What to compile, and how. -/
structure Options where
  /-- The files with syntax trees. -/
  inputs : List String := []
  /-- The file to write. -/
  output : Option String := none
  /-- Whether warnings are shown. -/
  logWarning : Option Bool := none
  /-- The file with the settings. -/
  config : Option String := none
  /-- The files with scripts, in order. -/
  transforms : List String := []
  /-- How many errors are tolerated. -/
  errorLimit : Option Nat := none
deriving Repr

/-- What the user asks for. -/
inductive Request where
  | help
  | version
  | compile (options : Options)
  /-- Arguments that cannot be understood. -/
  | misuse
deriving Repr

/-- A natural number of 64 bits, perhaps with a plus in front. -/
def number? (text : String) : Option Nat :=
  let digits := match text.toList with
    | '+' :: rest => rest
    | cs => cs
  if digits.isEmpty || !digits.all Text.isAsciiDigit then none
  else
    let n := digits.foldl (fun n c => 10 * n + (c.toNat - '0'.toNat)) 0
    if n < UInt64.size then some n else none

/-- A truth value. -/
def truth? : String → Option Bool
  | "true" => some true
  | "false" => some false
  | _ => none

/-- A path that is not empty. -/
def path? (text : String) : Option String := if text.isEmpty then none else some text

namespace Options

/-- Set an option that was not set before. -/
def setOnce {α : Type} (old value : Option α) (set : Option α → Options) : Option Options :=
  match old, value with
  | none, some value => some (set (some value))
  | _, _ => none

/-- Set an option to a value. -/
def set (o : Options) (switch : Switch) (value : String) : Option Options :=
  match switch with
  | .output => setOnce o.output (path? value) fun v => { o with output := v }
  | .logWarning => setOnce o.logWarning (truth? value) fun v => { o with logWarning := v }
  | .config => setOnce o.config (path? value) fun v => { o with config := v }
  | .transform => (path? value).map fun v => { o with transforms := o.transforms ++ [v] }
  | .errorLimit => setOnce o.errorLimit (number? value) fun v => { o with errorLimit := v }

/-- Add an input. -/
def addInput (o : Options) (value : String) : Option Options :=
  (path? value).map fun v => { o with inputs := o.inputs ++ [v] }

end Options

/-! ## Reading -/

/-- How far the arguments are read. -/
structure Progress where
  /-- The options so far. -/
  options : Options := {}
  /-- The option that waits for its value. -/
  waiting : Option Switch := none
  /-- Whether `--` was read. -/
  plain : Bool := false

namespace Progress

/-- Go on with other options, or give up. -/
def continue? (p : Progress) (options : Option Options) : Except Request Progress :=
  match options with
  | some options => .ok { p with options, waiting := none }
  | none => .error .misuse

/-- An option, with the value that is attached to it if there is one. -/
def option (p : Progress) (switch : Option Switch) (attached : Option String) :
    Except Request Progress :=
  match switch, attached with
  | some switch, some value => p.continue? (p.options.set switch value)
  | some switch, none => .ok { p with waiting := some switch }
  | none, _ => .error .misuse

/-- Read a long option, without its two dashes. -/
def long (p : Progress) (cs : List Char) : Except Request Progress :=
  let name := String.ofList (cs.takeWhile (· != '='))
  let attached := match cs.dropWhile (· != '=') with
    | _ :: value => some (String.ofList value)
    | [] => none
  match name, attached with
  | "help", none => .error .help
  | "version", none => .error .version
  | _, _ => p.option (Switch.ofLong? name) attached

/-- Read a short option, without its dash. -/
def short (p : Progress) (c : Char) (cs : List Char) : Except Request Progress :=
  if c = 'h' then .error .help
  else if c = 'V' then .error .version
  else
    let attached := match cs with
      | [] => none
      | '=' :: value | value => some (String.ofList value)
    p.option (Switch.ofShort? c) attached

/-- Read an argument. -/
def step (p : Progress) (arg : String) : Except Request Progress :=
  match p.plain, p.waiting, arg.toList with
  | true, _, _ => p.continue? (p.options.addInput arg)
  | false, none, ['-', '-'] => .ok { p with plain := true }
  | false, none, '-' :: '-' :: cs => p.long cs
  | false, none, '-' :: c :: cs => p.short c cs
  | false, none, _ => p.continue? (p.options.addInput arg)
  | false, some _, '-' :: _ :: _ => .error .misuse
  | false, some switch, _ => p.continue? (p.options.set switch arg)

/-- What the arguments amount to. -/
def finish (p : Progress) : Request :=
  if p.waiting.isSome || p.options.inputs.isEmpty then .misuse else .compile p.options

end Progress

/-- Read the arguments. -/
def Request.ofArgs (args : List String) : Request :=
  match args.foldlM Progress.step {} with
  | .ok p => p.finish
  | .error request => request

end IdlModel.CommandLine
