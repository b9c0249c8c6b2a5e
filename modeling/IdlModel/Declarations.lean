import IdlModel.Compilation
import IdlModel.Syntax.Document

/-!
# Declaring documents

The first stage enters the definitions of a document into the symbol table, in
order.  The first declaration of a name keeps it.  A later one is reported and
lost.  Fragments and includes statements are put aside.

A definition is read on its own, without the table, so what it says is a value:
a list of reports and the thing that it declares.

* Extended attributes are known, deprecated or unknown, and the last two are
  reported.  `Global` makes an interface global.  The deprecated `Constructor`
  gives it a constructor, the last one if there are several, unless its body
  has one.
* The first constructor of a body counts, and any other is reported.
* An operation without a name, and iterable, maplike, setlike and stringifier
  declarations, are reported and left out.
* A value of an enumeration counts once.
* A callback interface that has a parent, is global, or has a constructor,
  attributes or static methods, is reported and lost.
* An implements statement stops the run.

The log is polled after every definition but an includes statement.
-/

namespace IdlModel

open Syntax

/-! ## Reports -/

/-- An issue and the place it shows at. -/
abbrev LocatedIssue := Issue × Location

/-- Report several issues in order. -/
def Compilation.reportAll (c : Compilation) (issues : List LocatedIssue) : Compilation :=
  issues.foldl (fun c (issue, at_) => c.report issue at_) c

/-! ## Extended attributes -/

/-- The extended attributes that need no action. -/
def acceptedAnnotations : List String :=
  ["Exposed", "SecureContext", "LegacyNoInterfaceObject", "LegacyUnforgeable", "NewObject",
    "SameObject", "Replaceable", "PutForwards", "CEReactions", "HTMLConstructor",
    "LegacyWindowAlias", "LegacyFactoryFunction", "EnforceRange", "Clamp", "AllowShared",
    "LegacyNullToEmptyString", "Default", "LegacyLenientThis", "LegacyOverrideBuiltIns",
    "Serializable", "Transferable"]

/-- What is to be said of an extended attribute. -/
def annotationIssue? (a : Annotation) : Option Issue :=
  if a.name = "Global" then none
  else if a.name = "Constructor" then
    some (.deprecatedConstruct "[Constructor]" "constructor(...)")
  else if a.name = "NoInterfaceObject" then
    some (.deprecatedConstruct "[NoInterfaceObject]" "[LegacyNoInterfaceObject]")
  else if acceptedAnnotations.contains a.name then none
  else some (.unknownAttribute a.name)

/-- What is to be said of the extended attributes at one place. -/
def annotationReports (at_ : Location) (annotations : List Annotation) : List LocatedIssue :=
  (annotations.filterMap annotationIssue?).map (·, at_)

/-- Whether there is a `Global` among the extended attributes. -/
def isGlobal (annotations : List Annotation) : Bool := annotations.any (·.name == "Global")

/-- The parameters of the last `Constructor` among the extended attributes. -/
def annotatedConstructor? (annotations : List Annotation) : Option (List Argument) :=
  ((annotations.filter (·.name == "Constructor")).getLast?).map (·.args)

/-! ## Bodies -/

/-- The parameters of some arguments. -/
def parametersOf (args : List Argument) : List Parameter :=
  args.map fun a =>
    { name := a.name, type := .ofExpr a.type, optional := a.optional, variadic := a.variadic }

/-- A constructor of `owner`. -/
def constructorOf (owner : String) (args : List Argument) (source : Location) : Method :=
  { idl := "constructor", name := "New" ++ displayName owner, result := .unlinked owner,
    params := parametersOf args, source }

/-- What the body of an interface or a mixin says. -/
structure Body where
  /-- The members. -/
  members : Members := {}
  /-- The first constructor. -/
  constructor : Option Method := none
  /-- What is to be said of it, in order. -/
  reports : List LocatedIssue := []

namespace Body

/-- The body with one more report at the end. -/
def note (b : Body) (issue : Issue) (at_ : Location) : Body :=
  { b with reports := b.reports ++ [(issue, at_)] }

/-- The body with some more members, each behind those of its list. -/
def extend (b : Body) (members : Members) : Body := { b with members := b.members ++ members }

/-- A construct in the body of `owner` that is left out. -/
def unsupported (construct owner : String) : Issue :=
  .unsupportedMember ("`" ++ construct ++ "` in `" ++ owner ++ "`")

/-- The body with one more member. -/
def add (file owner : String) (b : Body) (m : Member) : Body :=
  let at_ : Location := ⟨file, m.line.toNat⟩
  match m with
  | .constant d =>
      b.extend { constants := [{
        idl := d.name, name := displayName d.name, type := .ofExpr d.type, value := d.value,
        source := at_ }] }
  | .attribute d =>
      let b := { b with reports := b.reports ++ annotationReports at_ d.annotations }
      let decl : Attribute :=
        { idl := d.name, name := displayName d.name, type := .ofExpr d.type,
          readonly := d.readonly, source := at_ }
      if d.isStatic then b.extend { staticAttributes := [decl] }
      else b.extend { attributes := [decl] }
  | .operation d =>
      let b := { b with reports := b.reports ++ annotationReports at_ d.annotations }
      match d.name with
      | none =>
          b.note (.unsupportedMember ("unnamed special operation in `" ++ owner ++ "`")) at_
      | some name =>
          let method : Method :=
            { idl := name, name := displayName name, result := .ofExpr d.returnType,
              params := parametersOf d.args, source := at_ }
          if d.isStatic then b.extend { staticMethods := [method] }
          else b.extend { methods := [method] }
  | .constructor d =>
      match b.constructor with
      | some _ => b.note (.unsupportedMember ("overloaded constructor of `" ++ owner ++ "`")) at_
      | none => { b with constructor := some (constructorOf owner d.args at_) }
  | .iterable _ => b.note (unsupported "iterable<...>" owner) at_
  | .maplike _ => b.note (unsupported "maplike<...>" owner) at_
  | .setlike _ => b.note (unsupported "setlike<...>" owner) at_
  | .stringifier _ => b.note (unsupported "stringifier" owner) at_

/-- What the members of a body say. -/
def ofMembers (file owner : String) (members : List Member) : Body :=
  members.foldl (add file owner) {}

end Body

/-! ## Definitions -/

/-- The first rule of callback interfaces that an interface breaks. -/
def callbackViolation? (d : Interface) : Option Issue :=
  let name := d.identity.idl
  if d.parent.isSome then some (.callbackInterfaceParent name)
  else if d.global then some (.callbackInterfaceGlobal name)
  else if d.constructor.isSome then some (.callbackInterfaceConstructor name)
  else if !d.members.attributes.isEmpty || !d.members.staticAttributes.isEmpty then
    some (.callbackInterfaceAttribute name)
  else if !d.members.staticMethods.isEmpty then some (.callbackInterfaceStaticMethod name)
  else none

/-- The values of an enumeration and those that are repeated. -/
def splitRepeated : (seen : List String) → List String → List String × List String
  | _, [] => ([], [])
  | seen, v :: vs =>
      if seen.contains v then
        let (kept, repeated) := splitRepeated seen vs
        (kept, v :: repeated)
      else
        let (kept, repeated) := splitRepeated (v :: seen) vs
        (v :: kept, repeated)

namespace Compilation

/-- The package of the declarations of a file. -/
def packageOf (c : Compilation) (file : String) : String :=
  c.settings.defaultPackage.getD (packageOfFile file)

/-- The compilation with a declaration tried.  If the name is taken, that is
reported. -/
def declared (c : Compilation) (name : String) (at_ : Location)
    (attempt : Except Location SymbolTable) : Compilation :=
  match attempt with
  | .ok table => { c with table }
  | .error previous => c.report (.duplicateName name previous) at_

/-- Declare an entity. -/
def declareEntity (c : Compilation) (e : Entity) : Compilation :=
  c.declared e.key e.source (c.table.insert e)

/-- Declare an enumeration. -/
def declareEnumeration (c : Compilation) (file : String) (d : EnumerationDecl) : Compilation :=
  let at_ : Location := ⟨file, d.line.toNat⟩
  let (values, repeated) := splitRepeated [] d.values
  let c := c.reportAll (annotationReports at_ d.annotations)
  let c := c.reportAll (repeated.map fun v => (.duplicateEnumValue d.name v, at_))
  c.declareEntity (.enumeration { identity := .ofIdl d.name (c.packageOf file) at_, values })

/-- The interface of a declaration in a package, and what is to be said of it. -/
def interfaceOf (file package : String) (d : InterfaceDecl) : Interface × List LocatedIssue :=
  let at_ : Location := ⟨file, d.line.toNat⟩
  let body := Body.ofMembers file d.name d.members
  let annotated := (annotatedConstructor? d.annotations).map (constructorOf d.name · at_)
  let decl : Interface :=
    { identity := .ofIdl d.name package at_
      members := body.members
      constructor := body.constructor <|> annotated
      parent := d.inherits.map .unlinked
      global := isGlobal d.annotations
      callback := d.callback }
  (decl, annotationReports at_ d.annotations ++ body.reports)

/-- Declare an interface, or put a fragment of one aside. -/
def declareInterface (c : Compilation) (file : String) (d : InterfaceDecl) : Compilation :=
  let (decl, reports) := interfaceOf file (c.packageOf file) d
  let c := c.reportAll reports
  match if decl.callback then callbackViolation? decl else none with
  | some issue => c.report issue decl.identity.source
  | none =>
      if d.isPartial then
        { c with fragments := { c.fragments with interfaces := c.fragments.interfaces ++ [decl] } }
      else c.declareEntity (.interface decl)

/-- Declare a mixin, or put a fragment of one aside. -/
def declareMixin (c : Compilation) (file : String) (d : MixinDecl) : Compilation :=
  let at_ : Location := ⟨file, d.line.toNat⟩
  let body := Body.ofMembers file d.name d.members
  let body :=
    if body.constructor.isSome then body.note (Body.unsupported "constructor" d.name) at_ else body
  let c := c.reportAll (annotationReports at_ d.annotations ++ body.reports)
  let decl : Mixin :=
    { identity := .ofIdl d.name (c.packageOf file) at_, members := body.members }
  if d.isPartial then
    { c with fragments := { c.fragments with mixins := c.fragments.mixins ++ [decl] } }
  else c.declared d.name at_ (c.table.insertMixin decl)

/-- The field of a declaration. -/
def fieldOf (file : String) (d : FieldDecl) : Field :=
  { idl := d.name, name := displayName d.name, type := .ofExpr d.type, required := d.required,
    default := d.default, source := ⟨file, d.line.toNat⟩ }

/-- Declare a dictionary, or put a fragment of one aside. -/
def declareDictionary (c : Compilation) (file : String) (d : DictionaryDecl) : Compilation :=
  let at_ : Location := ⟨file, d.line.toNat⟩
  let c := c.reportAll (annotationReports at_ d.annotations)
  let decl : Dictionary :=
    { identity := .ofIdl d.name (c.packageOf file) at_
      members := d.members.map (fieldOf file)
      parent := d.inherits.map .unlinked }
  if d.isPartial then
    { c with fragments :=
        { c.fragments with dictionaries := c.fragments.dictionaries ++ [decl] } }
  else c.declareEntity (.dictionary decl)

/-- Declare a callback function. -/
def declareCallback (c : Compilation) (file : String) (d : CallbackDecl) : Compilation :=
  let at_ : Location := ⟨file, d.line.toNat⟩
  let c := c.reportAll (annotationReports at_ d.annotations)
  c.declareEntity (.callback
    { identity := .ofIdl d.name (c.packageOf file) at_
      result := .ofExpr d.returnType
      params := parametersOf d.args })

/-- Declare a name for a type. -/
def declareTypedef (c : Compilation) (file : String) (d : TypedefDecl) : Compilation :=
  let at_ : Location := ⟨file, d.line.toNat⟩
  c.declared d.name at_ (c.table.insertTypedef { idl := d.name, type := .ofExpr d.type, source := at_ })

/-- Put an includes statement aside. -/
def declareInclusion (c : Compilation) (file : String) (d : IncludesDecl) : Compilation :=
  let inclusion : Inclusion :=
    { target := d.target, mixin := d.mixin, source := ⟨file, d.line.toNat⟩ }
  { c with fragments := { c.fragments with inclusions := c.fragments.inclusions ++ [inclusion] } }

end Compilation

/-! ## Documents -/

/-- Enter a definition. -/
def declareDefinition (file : String) : Definition → CompileM Unit
  | .enumeration d => do modify (·.declareEnumeration file d); checkLimit
  | .interface d => do modify (·.declareInterface file d); checkLimit
  | .mixin d => do modify (·.declareMixin file d); checkLimit
  | .dictionary d => do modify (·.declareDictionary file d); checkLimit
  | .includes d => modify (·.declareInclusion file d)
  | .callback d => do modify (·.declareCallback file d); checkLimit
  | .typedef d => do modify (·.declareTypedef file d); checkLimit
  | .implementation d => do
      let issue := Issue.unsupportedImplementation d.name d.implemented
      modify (·.report issue ⟨file, d.line.toNat⟩)
      throw (.fatal issue)

/-- Enter the definitions of a document. -/
def declareDocument (d : Document) : CompileM Unit :=
  d.definitions.forM (declareDefinition d.name)

end IdlModel
