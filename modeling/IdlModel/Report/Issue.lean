import IdlModel.Model.TypeRef
import IdlModel.Pattern.Fault
import IdlModel.Report.Location
import IdlModel.Script.Problem

/-!
# Issues

Everything that a run can complain about.  An issue is a cause with the names
it is about.  Its *code* is stable, its *severity* says whether it stops a run,
and its *message* is what a user reads.
-/

namespace IdlModel

/-- Whether an issue stops a run. -/
inductive Severity where
  | error | warning
deriving DecidableEq, Repr

/-- The word for a severity. -/
def Severity.text : Severity → String
  | .error => "error"
  | .warning => "warning"

/-- The kinds of declarations that a name can stand for. -/
inductive DeclarationKind where
  | entity (kind : EntityKind)
  | mixin
  | typedef
deriving DecidableEq, Repr

/-- The keyword of a kind of declaration. -/
def DeclarationKind.text : DeclarationKind → String
  | .entity kind => kind.text
  | .mixin => "mixin"
  | .typedef => "typedef"

/-- An issue. -/
inductive Issue where
  -- declarations and fragments
  | duplicateName (name : String) (previous : Location)
  | unknownBase (kind : DeclarationKind) (name : String)
  | kindMismatch (name : String) (expected found : DeclarationKind)
  | unknownTarget (name : String)
  | unknownMixin (name : String)
  | unsupportedImplementation (name implemented : String)
  | callbackInterfaceParent (name : String)
  | callbackInterfaceGlobal (name : String)
  | callbackInterfaceConstructor (name : String)
  | callbackInterfaceAttribute (name : String)
  | callbackInterfaceStaticMethod (name : String)
  -- references
  | unresolvedType (name : String)
  | inheritsNonInterface (name parent : String)
  | inheritsNonDictionary (name parent : String)
  | inheritanceCycle (name : String)
  | typedefCycle (name : String)
  | unknownGeneric (name : String)
  | unsupportedPromiseElement (element : String)
  | promiseArity (count : Nat)
  -- scripts
  | lexical (problem : Script.LexProblem)
  | statement (problem : Script.StatementProblem)
  | unknownCommand (name : String)
  | invalidPattern (pattern : String) (fault : Pattern.Fault)
  | unknownType (name : String)
  | unknownProperty (kind : EntityKind) (name : String)
  | invalidPropertyValue (name value : String)
  | unknownRenameTarget (typeName name : String)
  | renameNotSupported (kind : EntityKind) (typeName : String)
  | unknownMember (typeName name : String)
  | notApplicable (command : String) (kind : EntityKind) (typeName : String)
  | unknownEventType (name : String)
  -- warnings
  | unknownAttribute (name : String)
  | deprecatedConstruct (construct replacement : String)
  | unsupportedMember (construct : String)
  | duplicateEnumValue (enumName value : String)
deriving Repr

namespace Issue

/-- The stable code of an issue. -/
def code : Issue → String
  | duplicateName .. => "E001"
  | unknownBase .. => "E002"
  | kindMismatch .. => "E003"
  | unknownTarget .. => "E004"
  | unknownMixin .. => "E005"
  | unresolvedType .. => "E006"
  | inheritsNonInterface .. => "E007"
  | inheritsNonDictionary .. => "E008"
  | inheritanceCycle .. => "E009"
  | typedefCycle .. => "E010"
  | unknownGeneric .. => "E011"
  | unsupportedPromiseElement .. => "E012"
  | callbackInterfaceParent .. => "E013"
  | callbackInterfaceGlobal .. => "E014"
  | callbackInterfaceConstructor .. => "E015"
  | callbackInterfaceAttribute .. => "E016"
  | callbackInterfaceStaticMethod .. => "E017"
  | unsupportedImplementation .. => "E018"
  | promiseArity .. => "E019"
  | lexical .. => "E030"
  | statement .. => "E031"
  | unknownCommand .. => "E032"
  | invalidPattern .. => "E033"
  | unknownType .. => "E034"
  | unknownProperty .. => "E035"
  | invalidPropertyValue .. => "E036"
  | unknownRenameTarget .. => "E037"
  | renameNotSupported .. => "E038"
  | unknownMember .. => "E039"
  | notApplicable .. => "E040"
  | unknownEventType .. => "E041"
  | unknownAttribute .. => "W001"
  | deprecatedConstruct .. => "W002"
  | unsupportedMember .. => "W003"
  | duplicateEnumValue .. => "W004"

/-- The severity of an issue. -/
def severity : Issue → Severity
  | unknownAttribute .. | deprecatedConstruct .. | unsupportedMember ..
  | duplicateEnumValue .. => .warning
  | _ => .error

/-- A name between backticks. -/
def tick (name : String) : String := "`" ++ name ++ "`"

/-- The message of an issue. -/
def message : Issue → String
  | duplicateName name previous =>
      "duplicate name " ++ tick name ++ ", previously declared at " ++ previous.text
  | unknownBase kind name => "partial " ++ kind.text ++ " " ++ tick name ++ " has no base definition"
  | kindMismatch name expected found =>
      tick name ++ " is a " ++ found.text ++ ", but a partial " ++ expected.text ++
        " was declared for it"
  | unknownTarget name => "includes statement targets unknown interface " ++ tick name
  | unknownMixin name => "includes statement references unknown mixin " ++ tick name
  | unsupportedImplementation name implemented =>
      "legacy " ++ tick (name ++ " implements " ++ implemented) ++ " statements are not supported"
  | callbackInterfaceParent name => "callback interface " ++ tick name ++ " cannot inherit"
  | callbackInterfaceGlobal name =>
      "callback interface " ++ tick name ++ " cannot be a global scope"
  | callbackInterfaceConstructor name =>
      "callback interface " ++ tick name ++ " cannot have a constructor"
  | callbackInterfaceAttribute name =>
      "callback interface " ++ tick name ++ " cannot have attributes"
  | callbackInterfaceStaticMethod name =>
      "callback interface " ++ tick name ++ " cannot have static methods"
  | unresolvedType name => "unresolved type " ++ tick name
  | inheritsNonInterface name parent =>
      "interface " ++ tick name ++ " inherits from " ++ tick parent ++ ", which is not an interface"
  | inheritsNonDictionary name parent =>
      "dictionary " ++ tick name ++ " inherits from " ++ tick parent ++
        ", which is not a dictionary"
  | inheritanceCycle name => "inheritance cycle through " ++ tick name
  | typedefCycle name => "typedef " ++ tick name ++ " refers to itself"
  | unknownGeneric name => "unknown generic type " ++ tick (name ++ "<...>")
  | unsupportedPromiseElement element => "Promise<" ++ element ++ "> is not supported"
  | promiseArity count =>
      "Promise takes exactly one type argument, found " ++ toString count
  | lexical problem => problem.message
  | statement problem => problem.message
  | unknownCommand name => "unknown command " ++ tick ("@" ++ name)
  | invalidPattern pattern fault =>
      "invalid pattern " ++ tick pattern ++ ": " ++ fault.message pattern
  | unknownType name => "unknown type " ++ tick name
  | unknownProperty kind name => kind.text ++ " has no property " ++ tick name
  | invalidPropertyValue name value =>
      "invalid value " ++ tick value ++ " for property " ++ tick name
  | unknownRenameTarget typeName name =>
      tick typeName ++ " has no member " ++ tick name ++ " to rename"
  | renameNotSupported kind typeName =>
      kind.text ++ " " ++ tick typeName ++ " has no renameable members"
  | unknownMember typeName name => tick typeName ++ " has no member " ++ tick name
  | notApplicable command kind typeName =>
      tick ("@" ++ command) ++ " cannot be applied to " ++ kind.text ++ " " ++ tick typeName
  | unknownEventType name => "event type " ++ tick name ++ " is not an interface"
  | unknownAttribute name => "unknown extended attribute " ++ tick name
  | deprecatedConstruct construct replacement =>
      tick construct ++ " is deprecated, use " ++ tick replacement ++ " instead"
  | unsupportedMember construct => construct ++ " is not supported and was skipped"
  | duplicateEnumValue enumName value =>
      "enum " ++ tick enumName ++ " repeats value \"" ++ value ++ "\""

/-- An issue is an error exactly when its code starts with `E`. -/
theorem severity_eq_error_iff (i : Issue) : i.severity = .error ↔ i.code.toList.head? = some 'E' := by
  cases i <;> simp [severity, code]

end Issue

end IdlModel
