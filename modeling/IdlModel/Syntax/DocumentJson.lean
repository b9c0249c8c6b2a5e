import IdlModel.Json.Reader
import IdlModel.Json.Writer
import IdlModel.Syntax.Document

/-!
# Documents as JSON

The form in which documents come and go.  A document, a definition and a member
are objects; definitions and members say what they are under `kind`.  A type is
an object with a single key that names its shape.

Reading is lenient about what is missing and strict about what is there.

* Fields with a default may be left out.  Only texts that are optional may be
  `null`.
* Unknown fields are ignored, but in the object of a type there is exactly one
  key.
* A known field that occurs twice is refused, and so is a value of another
  shape.
* A record may also be an array of its first fields, in the order in which they
  are written.  Its kind comes first.
* The kind of a member may also be given by its place in the list of kinds, and
  a special keyword as a key with an empty value.

Writing leaves out nothing.
-/

namespace IdlModel.Syntax

open Json

/-! ## Types -/

mutual

/-- The object of a type. -/
def TypeExpr.toJson : TypeExpr → Json
  | .named name => .obj [("named", .str name)]
  | .sequence element => .obj [("sequence", element.toJson)]
  | .record key value => .obj [("record", .arr [key.toJson, value.toJson])]
  | .generic name args =>
      .obj [("generic", .obj [("name", .str name), ("args", .arr (typesToJson args))])]
  | .union members => .obj [("union", .arr (typesToJson members))]
  | .nullable inner => .obj [("nullable", inner.toJson)]

/-- The objects of several types. -/
def typesToJson : List TypeExpr → List Json
  | [] => []
  | t :: ts => t.toJson :: typesToJson ts

end

mutual

/-- Read the object of a type. -/
def TypeExpr.ofJson? : Json → Option TypeExpr
  | .obj [(kind, content)] =>
      if kind = "named" then content.str?.map .named
      else if kind = "sequence" then (TypeExpr.ofJson? content).map .sequence
      else if kind = "nullable" then (TypeExpr.ofJson? content).map .nullable
      else if kind = "union" then (typesOfJson? content).map .union
      else if kind = "record" then
        match typesOfJson? content with
        | some [key, value] => some (.record key value)
        | _ => none
      else if kind = "generic" then
        match content with
        | .obj ms => do
            let name ← Record.required ms "name" str?
            let args ← genericArgs? none ms
            return .generic name (← args)
        | .arr [.str name, args] => (typesOfJson? args).map (.generic name)
        | _ => none
      else none
  | _ => none

/-- Read an array of types. -/
def typesOfJson? : Json → Option (List TypeExpr)
  | .arr items => typeItems? items
  | _ => none

/-- Read the items of an array of types. -/
def typeItems? : List Json → Option (List TypeExpr)
  | [] => some []
  | item :: items => do return (← TypeExpr.ofJson? item) :: (← typeItems? items)

/-- Read the value under `args`.  `found` is what an earlier member gave.  The
outer `none` stands for a repeated key or a bad value. -/
def genericArgs? (found : Option (List TypeExpr)) :
    List (String × Json) → Option (Option (List TypeExpr))
  | [] => some found
  | (key, value) :: ms =>
      if key = "args" then
        match found, typesOfJson? value with
        | none, some args => genericArgs? (some args) ms
        | _, _ => none
      else genericArgs? found ms

end

/-! ## Arguments and extended attributes -/

/-- The object of an argument. -/
def Argument.toJson (a : Argument) : Json :=
  .obj [("name", .str a.name), ("type", a.type.toJson), ("optional", .bool a.optional),
    ("variadic", .bool a.variadic), ("default", ofText? a.default)]

/-- Read the object of an argument. -/
def Argument.ofJson? (j : Json) : Option Argument := do
  let ms ← j.record? ["name", "type", "optional", "variadic", "default"]
  return {
    name := ← ms.required "name" str?
    type := ← ms.required "type" TypeExpr.ofJson?
    optional := ← ms.withDefault "optional" false bool?
    variadic := ← ms.withDefault "variadic" false bool?
    default := ← ms.optional "default" str? }

/-- The object of an extended attribute. -/
def Annotation.toJson (a : Annotation) : Json :=
  .obj [("name", .str a.name), ("value", ofText? a.value),
    ("args", ofList Argument.toJson a.args)]

/-- Read the object of an extended attribute. -/
def Annotation.ofJson? (j : Json) : Option Annotation := do
  let ms ← j.record? ["name", "value", "args"]
  return {
    name := ← ms.required "name" str?
    value := ← ms.optional "value" str?
    args := ← ms.withDefault "args" [] (list? Argument.ofJson?) }

/-- The arguments among the members of an object, none if the field is left
out. -/
def argsOf (ms : Record) : Option (List Argument) :=
  ms.withDefault "args" [] (list? Argument.ofJson?)

/-- The extended attributes among the members of an object, none if the field
is left out. -/
def annotationsOf (ms : Record) : Option (List Annotation) :=
  ms.withDefault "annotations" [] (list? Annotation.ofJson?)

/-- The line among the members of an object, 0 if the field is left out. -/
def lineOf (ms : Record) : Option UInt64 := ms.withDefault "line" 0 word?

/-- A flag among the members of an object, off if the field is left out. -/
def flagOf (ms : Record) (key : String) : Option Bool := ms.withDefault key false bool?

/-- A line. -/
def lineJson (line : UInt64) : Json := .nat line.toNat

/-! ## Members of interfaces -/

/-- The keyword of a special operation. -/
def Special.text : Special → String
  | .getter => "getter"
  | .setter => "setter"
  | .deleter => "deleter"

/-- The special operation of a keyword. -/
def Special.ofText? : String → Option Special
  | "getter" => some .getter
  | "setter" => some .setter
  | "deleter" => some .deleter
  | _ => none

/-- Read a special keyword. -/
def Special.ofJson? : Json → Option Special
  | .str s => Special.ofText? s
  | .obj [(s, .null)] => Special.ofText? s
  | .obj [(s, .obj [])] => Special.ofText? s
  | _ => none

/-- The kinds of members, in order. -/
def memberKinds : List String :=
  ["const", "attribute", "operation", "constructor", "iterable", "maplike", "setlike",
    "stringifier"]

/-- Read the kind of a member: its name, or its place in `memberKinds`. -/
def memberKind? : Json → Option String
  | .str kind => some kind
  | .nat n => memberKinds[n]?
  | _ => none

/-- The object of a member. -/
def Member.toJson : Member → Json
  | .constant d =>
      .obj [("kind", .str "const"), ("name", .str d.name), ("type", d.type.toJson),
        ("value", .str d.value), ("line", lineJson d.line)]
  | .attribute d =>
      .obj [("kind", .str "attribute"), ("name", .str d.name), ("type", d.type.toJson),
        ("readonly", .bool d.readonly), ("static", .bool d.isStatic),
        ("annotations", ofList Annotation.toJson d.annotations), ("line", lineJson d.line)]
  | .operation d =>
      .obj [("kind", .str "operation"), ("name", ofText? d.name),
        ("return_type", d.returnType.toJson), ("args", ofList Argument.toJson d.args),
        ("static", .bool d.isStatic), ("special", ofText? (d.special.map Special.text)),
        ("annotations", ofList Annotation.toJson d.annotations), ("line", lineJson d.line)]
  | .constructor d =>
      .obj [("kind", .str "constructor"), ("args", ofList Argument.toJson d.args),
        ("line", lineJson d.line)]
  | .iterable line => .obj [("kind", .str "iterable"), ("line", lineJson line)]
  | .maplike line => .obj [("kind", .str "maplike"), ("line", lineJson line)]
  | .setlike line => .obj [("kind", .str "setlike"), ("line", lineJson line)]
  | .stringifier line => .obj [("kind", .str "stringifier"), ("line", lineJson line)]

/-- Read a constant. -/
def ConstantMember.ofJson? (j : Json) : Option ConstantMember := do
  let ms ← j.record? ["name", "type", "value", "line"]
  return {
    name := ← ms.required "name" str?
    type := ← ms.required "type" TypeExpr.ofJson?
    value := ← ms.required "value" str?
    line := ← lineOf ms }

/-- Read an attribute. -/
def AttributeMember.ofJson? (j : Json) : Option AttributeMember := do
  let ms ← j.record? ["name", "type", "readonly", "static", "annotations", "line"]
  return {
    name := ← ms.required "name" str?
    type := ← ms.required "type" TypeExpr.ofJson?
    readonly := ← flagOf ms "readonly"
    isStatic := ← flagOf ms "static"
    annotations := ← annotationsOf ms
    line := ← lineOf ms }

/-- Read an operation. -/
def OperationMember.ofJson? (j : Json) : Option OperationMember := do
  let ms ← j.record? ["name", "return_type", "args", "static", "special", "annotations", "line"]
  return {
    name := ← ms.optional "name" str?
    returnType := ← ms.required "return_type" TypeExpr.ofJson?
    args := ← argsOf ms
    isStatic := ← flagOf ms "static"
    special := ← ms.optional "special" Special.ofJson?
    annotations := ← annotationsOf ms
    line := ← lineOf ms }

/-- Read a constructor. -/
def ConstructorMember.ofJson? (j : Json) : Option ConstructorMember := do
  let ms ← j.record? ["args", "line"]
  return { args := ← argsOf ms, line := ← lineOf ms }

/-- Read the object of a member. -/
def Member.ofJson? (j : Json) : Option Member := do
  let (kind, body) ← j.tagged? "kind"
  let line : Option UInt64 := do lineOf (← body.record? ["line"])
  match ← memberKind? kind with
  | "const" => return .constant (← ConstantMember.ofJson? body)
  | "attribute" => return .attribute (← AttributeMember.ofJson? body)
  | "operation" => return .operation (← OperationMember.ofJson? body)
  | "constructor" => return .constructor (← ConstructorMember.ofJson? body)
  | "iterable" => return .iterable (← line)
  | "maplike" => return .maplike (← line)
  | "setlike" => return .setlike (← line)
  | "stringifier" => return .stringifier (← line)
  | _ => none

/-! ## Definitions -/

/-- The object of a member of a dictionary. -/
def FieldDecl.toJson (d : FieldDecl) : Json :=
  .obj [("name", .str d.name), ("type", d.type.toJson), ("required", .bool d.required),
    ("default", ofText? d.default), ("line", lineJson d.line)]

/-- Read the object of a member of a dictionary. -/
def FieldDecl.ofJson? (j : Json) : Option FieldDecl := do
  let ms ← j.record? ["name", "type", "required", "default", "line"]
  return {
    name := ← ms.required "name" str?
    type := ← ms.required "type" TypeExpr.ofJson?
    required := ← flagOf ms "required"
    default := ← ms.optional "default" str?
    line := ← lineOf ms }

/-- The object of a definition. -/
def Definition.toJson : Definition → Json
  | .enumeration d =>
      .obj [("kind", .str "enum"), ("name", .str d.name), ("values", ofList .str d.values),
        ("annotations", ofList Annotation.toJson d.annotations), ("line", lineJson d.line)]
  | .interface d =>
      .obj [("kind", .str "interface"), ("name", .str d.name), ("partial", .bool d.isPartial),
        ("callback", .bool d.callback), ("inherits", ofText? d.inherits),
        ("annotations", ofList Annotation.toJson d.annotations),
        ("members", ofList Member.toJson d.members), ("line", lineJson d.line)]
  | .mixin d =>
      .obj [("kind", .str "mixin"), ("name", .str d.name), ("partial", .bool d.isPartial),
        ("annotations", ofList Annotation.toJson d.annotations),
        ("members", ofList Member.toJson d.members), ("line", lineJson d.line)]
  | .dictionary d =>
      .obj [("kind", .str "dictionary"), ("name", .str d.name), ("partial", .bool d.isPartial),
        ("inherits", ofText? d.inherits),
        ("annotations", ofList Annotation.toJson d.annotations),
        ("members", ofList FieldDecl.toJson d.members), ("line", lineJson d.line)]
  | .includes d =>
      .obj [("kind", .str "includes"), ("target", .str d.target), ("mixin", .str d.mixin),
        ("line", lineJson d.line)]
  | .callback d =>
      .obj [("kind", .str "callback"), ("name", .str d.name),
        ("return_type", d.returnType.toJson), ("args", ofList Argument.toJson d.args),
        ("annotations", ofList Annotation.toJson d.annotations), ("line", lineJson d.line)]
  | .typedef d =>
      .obj [("kind", .str "typedef"), ("name", .str d.name), ("type", d.type.toJson),
        ("line", lineJson d.line)]
  | .implementation d =>
      .obj [("kind", .str "implementation"), ("name", .str d.name),
        ("implements", .str d.implemented), ("line", lineJson d.line)]

/-- Read an enumeration. -/
def EnumerationDecl.ofJson? (j : Json) : Option EnumerationDecl := do
  let ms ← j.record? ["name", "values", "annotations", "line"]
  return {
    name := ← ms.required "name" str?
    values := ← ms.withDefault "values" [] (list? str?)
    annotations := ← annotationsOf ms
    line := ← lineOf ms }

/-- Read an interface. -/
def InterfaceDecl.ofJson? (j : Json) : Option InterfaceDecl := do
  let ms ← j.record? ["name", "partial", "callback", "inherits", "annotations", "members", "line"]
  return {
    name := ← ms.required "name" str?
    isPartial := ← flagOf ms "partial"
    callback := ← flagOf ms "callback"
    inherits := ← ms.optional "inherits" str?
    annotations := ← annotationsOf ms
    members := ← ms.withDefault "members" [] (list? Member.ofJson?)
    line := ← lineOf ms }

/-- Read a mixin. -/
def MixinDecl.ofJson? (j : Json) : Option MixinDecl := do
  let ms ← j.record? ["name", "partial", "annotations", "members", "line"]
  return {
    name := ← ms.required "name" str?
    isPartial := ← flagOf ms "partial"
    annotations := ← annotationsOf ms
    members := ← ms.withDefault "members" [] (list? Member.ofJson?)
    line := ← lineOf ms }

/-- Read a dictionary. -/
def DictionaryDecl.ofJson? (j : Json) : Option DictionaryDecl := do
  let ms ← j.record? ["name", "partial", "inherits", "annotations", "members", "line"]
  return {
    name := ← ms.required "name" str?
    isPartial := ← flagOf ms "partial"
    inherits := ← ms.optional "inherits" str?
    annotations := ← annotationsOf ms
    members := ← ms.withDefault "members" [] (list? FieldDecl.ofJson?)
    line := ← lineOf ms }

/-- Read an includes statement. -/
def IncludesDecl.ofJson? (j : Json) : Option IncludesDecl := do
  let ms ← j.record? ["target", "mixin", "line"]
  return {
    target := ← ms.required "target" str?
    mixin := ← ms.required "mixin" str?
    line := ← lineOf ms }

/-- Read a callback function. -/
def CallbackDecl.ofJson? (j : Json) : Option CallbackDecl := do
  let ms ← j.record? ["name", "return_type", "args", "annotations", "line"]
  return {
    name := ← ms.required "name" str?
    returnType := ← ms.required "return_type" TypeExpr.ofJson?
    args := ← argsOf ms
    annotations := ← annotationsOf ms
    line := ← lineOf ms }

/-- Read a name for a type. -/
def TypedefDecl.ofJson? (j : Json) : Option TypedefDecl := do
  let ms ← j.record? ["name", "type", "line"]
  return {
    name := ← ms.required "name" str?
    type := ← ms.required "type" TypeExpr.ofJson?
    line := ← lineOf ms }

/-- Read an implements statement. -/
def ImplementationDecl.ofJson? (j : Json) : Option ImplementationDecl := do
  let ms ← j.record? ["name", "implements", "line"]
  return {
    name := ← ms.required "name" str?
    implemented := ← ms.required "implements" str?
    line := ← lineOf ms }

/-- Read the object of a definition. -/
def Definition.ofJson? (j : Json) : Option Definition := do
  let (kind, body) ← j.tagged? "kind"
  match ← kind.str? with
  | "enum" => return .enumeration (← EnumerationDecl.ofJson? body)
  | "interface" => return .interface (← InterfaceDecl.ofJson? body)
  | "mixin" => return .mixin (← MixinDecl.ofJson? body)
  | "dictionary" => return .dictionary (← DictionaryDecl.ofJson? body)
  | "includes" => return .includes (← IncludesDecl.ofJson? body)
  | "callback" => return .callback (← CallbackDecl.ofJson? body)
  | "typedef" => return .typedef (← TypedefDecl.ofJson? body)
  | "implementation" => return .implementation (← ImplementationDecl.ofJson? body)
  | _ => none

/-! ## Documents -/

/-- The object of a document. -/
def Document.toJson (d : Document) : Json :=
  .obj [("name", .str d.name), ("definitions", ofList Definition.toJson d.definitions)]

/-- Read the object of a document. -/
def Document.ofJson? (j : Json) : Option Document := do
  let ms ← j.record? ["name", "definitions"]
  return {
    name := ← ms.withDefault "name" "" str?
    definitions := ← ms.withDefault "definitions" [] (list? Definition.ofJson?) }

/-- Read a document from its text.  Members of the outermost object that a
document does not have need not be more than grammatical. -/
def Document.read? (text : String) : Option Document :=
  (readDocument? (fun key => key == "name" || key == "definitions") text).bind Document.ofJson?

end IdlModel.Syntax
