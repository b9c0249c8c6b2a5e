import IdlModel.Json.Writer
import IdlModel.Model.SymbolTable

/-!
# The model as JSON

The written form of every part of the model.  A part is an object with its
fields in a fixed order.  An entity says its kind first.  A reference is an
object with its shape under `kind` and what it is made of, if anything, under
`of`.  A handle is a number: the place of the entity in the list of entities.
-/

namespace IdlModel

open Json

/-- A handle. -/
def EntityId.toJson (id : EntityId) : Json := .nat id.index

/-- A location. -/
def Location.toJson (l : Location) : Json := .obj [("file", .str l.file), ("line", .nat l.line)]

/-! ## References -/

/-- A reference of a shape, made of something. -/
def shapeJson (kind : String) (of_ : Json) : Json := .obj [("kind", .str kind), ("of", of_)]

mutual

/-- A reference. -/
def TypeRef.toJson : TypeRef → Json
  | .primitive p => shapeJson "primitive" (.str p.tag)
  | .void => .obj [("kind", .str "void")]
  | .any => .obj [("kind", .str "any")]
  | .sequence element => shapeJson "sequence" element.toJson
  | .record key value => shapeJson "record" (.arr [key.toJson, value.toJson])
  | .parametrized name args =>
      shapeJson "parametrized" (.obj [("name", .str name), ("args", .arr (refsToJson args))])
  | .union members => shapeJson "union" (.arr (refsToJson members))
  | .nullable inner => shapeJson "nullable" inner.toJson
  | .entity kind id => shapeJson kind.text id.toJson
  | .unlinked name => shapeJson "name" (.str name)
  | .placeholder hole => shapeJson "placeholder" (.str hole.text)

/-- Several references. -/
def refsToJson : List TypeRef → List Json
  | [] => []
  | t :: ts => t.toJson :: refsToJson ts

end

/-- A value or `null`. -/
def optionJson {α : Type} (value : α → Json) : Option α → Json
  | some x => value x
  | none => .null

/-! ## Parts -/

/-- A mark of the template of promises. -/
def TemplateMark.toJson : TemplateMark → Json
  | .template => .obj [("template", .str "promise_template")]
  | .madeFor key => .obj [("template", .str "promise"), ("key", .str key)]

/-- An identity. -/
def Identity.toJson (d : Identity) : Json :=
  .obj [("idl", .str d.idl), ("name", .str d.name), ("internal", .str d.internal),
    ("package", .str d.package), ("template", optionJson TemplateMark.toJson d.template),
    ("source", d.source.toJson)]

/-- A constant. -/
def Constant.toJson (d : Constant) : Json :=
  .obj [("idl", .str d.idl), ("name", .str d.name), ("ty", d.type.toJson),
    ("value", .str d.value), ("source", d.source.toJson)]

/-- An attribute. -/
def Attribute.toJson (d : Attribute) : Json :=
  .obj [("idl", .str d.idl), ("name", .str d.name), ("ty", d.type.toJson),
    ("readonly", .bool d.readonly), ("source", d.source.toJson),
    ("type_override", ofText? d.typeOverride)]

/-- A parameter. -/
def Parameter.toJson (d : Parameter) : Json :=
  .obj [("name", .str d.name), ("ty", d.type.toJson), ("optional", .bool d.optional),
    ("variadic", .bool d.variadic), ("type_override", ofText? d.typeOverride)]

/-- A method. -/
def Method.toJson (d : Method) : Json :=
  .obj [("idl", .str d.idl), ("name", .str d.name), ("ret", d.result.toJson),
    ("params", ofList Parameter.toJson d.params), ("source", d.source.toJson),
    ("type_override", ofText? d.typeOverride)]

/-- Members. -/
def Members.toJson (d : Members) : Json :=
  .obj [("consts", ofList Constant.toJson d.constants),
    ("vars", ofList Attribute.toJson d.attributes),
    ("static_vars", ofList Attribute.toJson d.staticAttributes),
    ("methods", ofList Method.toJson d.methods),
    ("static_methods", ofList Method.toJson d.staticMethods)]

/-- An event. -/
def Event.toJson (d : Event) : Json :=
  .obj [("name", .str d.name), ("event", d.type.toJson), ("handler", ofText? d.handler),
    ("source", d.source.toJson)]

/-- A member of a dictionary. -/
def Field.toJson (d : Field) : Json :=
  .obj [("idl", .str d.idl), ("name", .str d.name), ("ty", d.type.toJson),
    ("required", .bool d.required), ("default", ofText? d.default), ("source", d.source.toJson),
    ("type_override", ofText? d.typeOverride)]

/-! ## Declarations -/

/-- The fields of an interface. -/
def Interface.toMembers (d : Interface) : Json.Record :=
  [("basic", d.identity.toJson), ("members", d.members.toJson),
    ("constructor", optionJson Method.toJson d.constructor),
    ("parent", optionJson TypeRef.toJson d.parent), ("global", .bool d.global),
    ("callback", .bool d.callback), ("events", ofList Event.toJson d.events)]

/-- The fields of a dictionary. -/
def Dictionary.toMembers (d : Dictionary) : Json.Record :=
  [("basic", d.identity.toJson), ("members", ofList Field.toJson d.members),
    ("inherited", ofList Field.toJson d.inherited),
    ("parent", optionJson TypeRef.toJson d.parent)]

/-- The fields of an enumeration. -/
def Enumeration.toMembers (d : Enumeration) : Json.Record :=
  [("basic", d.identity.toJson), ("values", ofList .str d.values), ("prefix", .str d.namePrefix),
    ("suffix", .str d.nameSuffix)]

/-- The fields of a callback. -/
def Callback.toMembers (d : Callback) : Json.Record :=
  [("basic", d.identity.toJson), ("ret", d.result.toJson),
    ("params", ofList Parameter.toJson d.params)]

/-- An entity. -/
def Entity.toJson (e : Entity) : Json :=
  let fields :=
    match e with
    | .interface d => d.toMembers
    | .dictionary d => d.toMembers
    | .enumeration d => d.toMembers
    | .callback d => d.toMembers
  .obj (("kind", .str e.kind.text) :: fields)

/-- A mixin. -/
def Mixin.toJson (d : Mixin) : Json :=
  .obj [("basic", d.identity.toJson), ("members", d.members.toJson)]

/-- An includes statement. -/
def Inclusion.toJson (d : Inclusion) : Json :=
  .obj [("target", .str d.target), ("mixin", .str d.mixin), ("source", d.source.toJson)]

/-- A typedef. -/
def Typedef.toJson (d : Typedef) : Json :=
  .obj [("idl", .str d.idl), ("ty", d.type.toJson), ("source", d.source.toJson)]

/-- The entities of a promise. -/
def PromiseInstance.toJson (d : PromiseInstance) : Json :=
  .obj [("interface", d.interface.toJson), ("on_fulfilled", d.onFulfilled.toJson),
    ("on_rejected", d.onRejected.toJson)]

namespace SymbolTable

/-- The declarations of a table: entities, mixins and typedefs. -/
def declarationsJson (t : SymbolTable) : Json.Record :=
  [("entities", ofList (fun s : Slot => s.entity.toJson) t.slots.toList),
    ("mixins", ofList Mixin.toJson t.mixins.toList),
    ("typedefs", ofList Typedef.toJson t.typedefs.toList)]

/-- A table: its declarations and the promises in the order of their
recording. -/
def toJson (t : SymbolTable) : Json :=
  .obj (t.declarationsJson ++
    [("promises", .obj (t.promises.entries.map fun (key, made) => (key, made.toJson)))])

end SymbolTable

end IdlModel
