import IdlModel.Compilation
import IdlModel.Model.Spelling

/-!
# Promises

The fourth stage puts an interface of its own in the place of every
`Promise<T>` in the types of the entities in use.  The interface comes with two
callbacks, and all three are made from one template.

    interface PromiseTemplate {
      PromiseTemplate then(OnFulfilled onFulfilled, optional OnRejected onRejected);
      PromiseTemplate catch(OnRejected onRejected);
    };
    callback OnFulfilled = void (Element value);
    callback OnRejected = void (any reason);

Types are rebuilt from the inside out, so an element holds no promise any more
when its own promise is met.  Promises are shared by the spelling of the
element.  `DOMString` and `USVString` are the same in the generated code, so a
promise is also recorded under the spelling with the two exchanged.

A promise is refused if it has not exactly one argument, or if its element is
`void` or `any` below any number of sequences and nullables.

The new entities are named for the element, are in use from the start, and
belong to the package of the entity that needs them first, or to the package of
primitive promises if the element is primitive.
-/

namespace IdlModel

/-! ## The template -/

/-- The interface and the callbacks of a promise. -/
structure PromiseTemplate where
  /-- The interface. -/
  interface : Interface
  /-- The callback for the value. -/
  onFulfilled : Callback
  /-- The callback for the failure. -/
  onRejected : Callback
deriving Repr

namespace PromiseTemplate

/-- Where the template is declared. -/
def source : Location := ⟨"<builtin promise>", 0⟩

/-- The identity of a part of the template. -/
def identity (idl : String) : Identity :=
  { Identity.ofIdl idl (packageOfFile source.file) source with template := some .template }

/-- A parameter of the template. -/
def parameter (name : String) (type : TypeRef) (optional : Bool := false) : Parameter :=
  { name, type, optional, variadic := false }

/-- A method of the template, which returns the promise itself. -/
def method (idl : String) (params : List Parameter) : Method :=
  { idl, name := displayName idl, result := .placeholder .promise, params, source }

/-- The template with placeholders for what varies. -/
def builtin : PromiseTemplate :=
  { interface :=
      { identity := identity "PromiseTemplate"
        members :=
          { methods :=
              [method "then" [parameter "onFulfilled" (.placeholder .onFulfilled),
                  parameter "onRejected" (.placeholder .onRejected) true],
                method "catch" [parameter "onRejected" (.placeholder .onRejected)]] } }
    onFulfilled :=
      { identity := identity "PromiseTemplateOnFulfilled"
        result := .void
        params := [parameter "value" (.placeholder .element)] }
    onRejected :=
      { identity := identity "PromiseTemplateOnRejected"
        result := .void
        params := [parameter "reason" .any] } }

/-- The entities of a template, with an identity for each that depends on what
its name ends in. -/
def entities (template : PromiseTemplate) (identity : String → Identity) : List Entity :=
  [.interface { template.interface with identity := identity "" },
    .callback { template.onFulfilled with identity := identity "OnFulfilled" },
    .callback { template.onRejected with identity := identity "OnRejected" }]

end PromiseTemplate

/-! ## Elements -/

namespace TypeRef

/-- The element below sequences and nullables. -/
def innermost : TypeRef → TypeRef
  | .sequence element => innermost element
  | .nullable inner => innermost inner
  | t => t

/-- The reference with the two string types exchanged. -/
def swapStrings (t : TypeRef) : TypeRef :=
  t.mapLeaves fun
    | .primitive p => .primitive (p.alias?.getD p)
    | leaf => leaf

/-- Whether a reference mentions a string type that has an alias.  Exactly then
it changes if the string types are exchanged. -/
def mentionsString (t : TypeRef) : Bool :=
  t.anyLeaf fun
    | .primitive p => p.alias?.isSome
    | _ => false

/-- The reference with the placeholders filled in. -/
def fill (element : TypeRef) (made : PromiseInstance) (t : TypeRef) : TypeRef :=
  t.mapLeaves fun
    | .placeholder .element => element
    | .placeholder .promise => .entity .interface made.interface
    | .placeholder .onFulfilled => .entity .callback made.onFulfilled
    | .placeholder .onRejected => .entity .callback made.onRejected
    | leaf => leaf

end TypeRef

/-! ## Instances -/

namespace SymbolTable

/-- Add an entity that is in use. -/
def addInUse (t : SymbolTable) (e : Entity) : SymbolTable := (t.push e).mark t.nextId

/-- The handles that the entities of a promise get if the first is added at
`n`. -/
def promiseAt (n : Nat) : PromiseInstance := ⟨⟨n⟩, ⟨n + 1⟩, ⟨n + 2⟩⟩

/-- Add the entities of a promise. -/
def addPromise (t : SymbolTable) (template : PromiseTemplate) (identity : String → Identity)
    (element : TypeRef) : SymbolTable × PromiseInstance :=
  let made := promiseAt t.size
  let entities := (template.entities identity).map (·.mapTypes (TypeRef.fill element made))
  (entities.foldl addInUse t, made)

end SymbolTable

namespace Compilation

/-- The package of a promise that is needed in `package`. -/
def promisePackage (c : Compilation) (package : String) (element : TypeRef) : String :=
  match element.innermost with
  | .primitive _ => c.settings.primitivePackage
  | _ => package

/-- The identity of an entity of a promise.  `name` is the name of the element and
`key` its spelling. -/
def promiseIdentity (package : String) (at_ : Location) (key name ending : String) : Identity :=
  { Identity.ofIdl ("Promise" ++ name ++ ending) package at_ with template := some (.madeFor key) }

/-- Make the promise of an element that has this spelling.  `package` and `at_`
are those of the entity and the type that need it. -/
def makePromise (c : Compilation) (package : String) (at_ : Location) (key : String)
    (element : TypeRef) : Compilation × PromiseInstance :=
  let identity :=
    promiseIdentity (c.promisePackage package element) at_ key (c.table.elementName element)
  let (table, made) := c.table.addPromise PromiseTemplate.builtin identity element
  let table := table.putPromise key made
  let table :=
    if element.mentionsString then table.putPromise (table.spelling element.swapStrings) made
    else table
  ({ c with table }, made)

end Compilation

/-- An action that replaces promises. -/
abbrev PromiseM := StateM Compilation

/-- Whether a promise cannot have this element. -/
def isRefusedElement (element : TypeRef) : Bool :=
  match element.innermost with
  | .void | .any => true
  | _ => false

/-- The interface for a promise of an element, or none with a report. -/
def promiseOf (package : String) (at_ : Location) (element : TypeRef) :
    PromiseM (Option EntityId) := do
  let c ← get
  let key := c.table.spelling element
  match c.table.promise? key with
  | some made => do
      set { c with table := c.table.mark made.interface }
      return some made.interface
  | none =>
      if isRefusedElement element then do
        set (c.report (.unsupportedPromiseElement key) at_)
        return none
      else do
        let (c, made) := c.makePromise package at_ key element
        set c
        return some made.interface

/-- Put an interface in the place of a promise. -/
def replacePromise (package : String) (at_ : Location) (t : TypeRef) : PromiseM TypeRef :=
  match t with
  | .parametrized name args =>
      if name = "Promise" then
        match args with
        | [element] => do
            match ← promiseOf package at_ element with
            | some id => return .entity .interface id
            | none => return t
        | _ => do
            modify (·.report (.promiseArity args.length) at_)
            return t
      else return t
  | t => return t

/-- Put interfaces in the place of all promises in a type. -/
def replacePromises (package : String) (at_ : Location) (t : TypeRef) : PromiseM TypeRef :=
  t.rebuildM (fun _ => pure ()) (replacePromise package at_)

/-- Put interfaces in the place of all promises of an entity, then poll the log. -/
def settlePromises (id : EntityId) : CompileM Unit := do
  match (← get).table.entity? id with
  | none => pure ()
  | some e => do
      let (settled, c) := (e.mapTypesM (replacePromises e.identity.package)).run (← get)
      set { c with table := c.table.set id settled }
  checkLimit

/-- Put interfaces in the place of the promises of all entities in use. -/
def instantiatePromises : CompileM Unit := do
  (← get).table.idsInUse.forM settlePromises

end IdlModel
