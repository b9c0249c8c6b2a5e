import IdlModel.Syntax.TypeExpr

/-!
# Documents

A *document* is what a parser of interface definitions hands over for one file:
the definitions in order, each with the line it starts on.  Lines are words of
64 bits.  A line of 0 stands for an unknown one.

The last section completes a definition step by step: each function returns it
with one thing set or added.
-/

namespace IdlModel.Syntax

/-- A parameter of an operation, a constructor or a callback. -/
structure Argument where
  /-- Its name. -/
  name : String
  /-- Its type. -/
  type : TypeExpr
  /-- Whether it may be left out. -/
  optional : Bool := false
  /-- Whether it stands for any number of values. -/
  variadic : Bool := false
  /-- Its default value, as it is written. -/
  default : Option String := none
deriving Repr

/-- An extended attribute such as `[Exposed=Window]` or `[Constructor(long x)]`. -/
structure Annotation where
  /-- Its name. -/
  name : String
  /-- What stands behind the equals sign. -/
  value : Option String := none
  /-- What stands between the parentheses. -/
  args : List Argument := []
deriving Repr

/-- The keyword of a special operation. -/
inductive Special where
  | getter | setter | deleter
deriving DecidableEq, Repr

/-- A constant. -/
structure ConstantMember where
  /-- Its name. -/
  name : String
  /-- Its type. -/
  type : TypeExpr
  /-- Its value, as it is written. -/
  value : String
  /-- Its line. -/
  line : UInt64 := 0
deriving Repr

/-- An attribute. -/
structure AttributeMember where
  /-- Its name. -/
  name : String
  /-- Its type. -/
  type : TypeExpr
  /-- Whether it cannot be assigned. -/
  readonly : Bool := false
  /-- Whether it belongs to the interface and not to its objects. -/
  isStatic : Bool := false
  /-- Its extended attributes. -/
  annotations : List Annotation := []
  /-- Its line. -/
  line : UInt64 := 0
deriving Repr

/-- An operation. -/
structure OperationMember where
  /-- Its name.  A special operation may have none. -/
  name : Option String := none
  /-- The type it returns. -/
  returnType : TypeExpr
  /-- Its parameters. -/
  args : List Argument := []
  /-- Whether it belongs to the interface and not to its objects. -/
  isStatic : Bool := false
  /-- Its keyword, if it is special. -/
  special : Option Special := none
  /-- Its extended attributes. -/
  annotations : List Annotation := []
  /-- Its line. -/
  line : UInt64 := 0
deriving Repr

/-- A constructor. -/
structure ConstructorMember where
  /-- Its parameters. -/
  args : List Argument := []
  /-- Its line. -/
  line : UInt64 := 0
deriving Repr

/-- A declaration in the body of an interface or a mixin. -/
inductive Member where
  | constant (decl : ConstantMember)
  | attribute (decl : AttributeMember)
  | operation (decl : OperationMember)
  | constructor (decl : ConstructorMember)
  | iterable (line : UInt64)
  | maplike (line : UInt64)
  | setlike (line : UInt64)
  | stringifier (line : UInt64)
deriving Repr

/-- An interface, or a fragment of one. -/
structure InterfaceDecl where
  /-- Its name. -/
  name : String
  /-- Whether it is a fragment. -/
  isPartial : Bool := false
  /-- Whether it is a callback interface. -/
  callback : Bool := false
  /-- The name of the interface it inherits from. -/
  inherits : Option String := none
  /-- Its extended attributes. -/
  annotations : List Annotation := []
  /-- Its body. -/
  members : List Member := []
  /-- Its line. -/
  line : UInt64 := 0
deriving Repr

/-- A mixin, or a fragment of one. -/
structure MixinDecl where
  /-- Its name. -/
  name : String
  /-- Whether it is a fragment. -/
  isPartial : Bool := false
  /-- Its extended attributes. -/
  annotations : List Annotation := []
  /-- Its body. -/
  members : List Member := []
  /-- Its line. -/
  line : UInt64 := 0
deriving Repr

/-- A member of a dictionary. -/
structure FieldDecl where
  /-- Its name. -/
  name : String
  /-- Its type. -/
  type : TypeExpr
  /-- Whether it has to be given. -/
  required : Bool := false
  /-- Its default value, as it is written. -/
  default : Option String := none
  /-- Its line. -/
  line : UInt64 := 0
deriving Repr

/-- A dictionary, or a fragment of one. -/
structure DictionaryDecl where
  /-- Its name. -/
  name : String
  /-- Whether it is a fragment. -/
  isPartial : Bool := false
  /-- The name of the dictionary it inherits from. -/
  inherits : Option String := none
  /-- Its extended attributes. -/
  annotations : List Annotation := []
  /-- Its members. -/
  members : List FieldDecl := []
  /-- Its line. -/
  line : UInt64 := 0
deriving Repr

/-- An enumeration. -/
structure EnumerationDecl where
  /-- Its name. -/
  name : String
  /-- Its values in order, repetitions included. -/
  values : List String := []
  /-- Its extended attributes. -/
  annotations : List Annotation := []
  /-- Its line. -/
  line : UInt64 := 0
deriving Repr

/-- A callback function. -/
structure CallbackDecl where
  /-- Its name. -/
  name : String
  /-- The type it returns. -/
  returnType : TypeExpr
  /-- Its parameters. -/
  args : List Argument := []
  /-- Its extended attributes. -/
  annotations : List Annotation := []
  /-- Its line. -/
  line : UInt64 := 0
deriving Repr

/-- A name for a type. -/
structure TypedefDecl where
  /-- The new name. -/
  name : String
  /-- What it stands for. -/
  type : TypeExpr
  /-- Its line. -/
  line : UInt64 := 0
deriving Repr

/-- The statement `target includes mixin`. -/
structure IncludesDecl where
  /-- The interface. -/
  target : String
  /-- The mixin. -/
  mixin : String
  /-- Its line. -/
  line : UInt64 := 0
deriving Repr

/-- The legacy statement `name implements implemented`. -/
structure ImplementationDecl where
  /-- The interface. -/
  name : String
  /-- What it implements. -/
  implemented : String
  /-- Its line. -/
  line : UInt64 := 0
deriving Repr

/-- A definition at the top of a document. -/
inductive Definition where
  | enumeration (decl : EnumerationDecl)
  | interface (decl : InterfaceDecl)
  | mixin (decl : MixinDecl)
  | dictionary (decl : DictionaryDecl)
  | includes (decl : IncludesDecl)
  | callback (decl : CallbackDecl)
  | typedef (decl : TypedefDecl)
  | implementation (decl : ImplementationDecl)
deriving Repr

/-- The definitions of one file. -/
structure Document where
  /-- The name of the file. -/
  name : String := ""
  /-- The definitions in order. -/
  definitions : List Definition := []
deriving Repr

/-! ## Completing definitions -/

namespace Member

/-- The line of a member. -/
def line : Member → UInt64
  | .constant d => d.line
  | .attribute d => d.line
  | .operation d => d.line
  | .constructor d => d.line
  | .iterable l | .maplike l | .setlike l | .stringifier l => l

/-- The member on another line. -/
def onLine (m : Member) (line : UInt64) : Member :=
  match m with
  | .constant d => .constant { d with line }
  | .attribute d => .attribute { d with line }
  | .operation d => .operation { d with line }
  | .constructor d => .constructor { d with line }
  | .iterable _ => .iterable line
  | .maplike _ => .maplike line
  | .setlike _ => .setlike line
  | .stringifier _ => .stringifier line

/-- An attribute made read-only.  No other member changes. -/
def readonly : Member → Member
  | .attribute d => .attribute { d with readonly := true }
  | m => m

/-- An attribute or operation made static.  No other member changes. -/
def static : Member → Member
  | .attribute d => .attribute { d with isStatic := true }
  | .operation d => .operation { d with isStatic := true }
  | m => m

/-- A member is on the line it was put on. -/
@[simp] theorem line_onLine (m : Member) (l : UInt64) : (m.onLine l).line = l := by
  cases m <;> rfl

end Member

/-- The interface with one more member at its end. -/
def InterfaceDecl.add (d : InterfaceDecl) (m : Member) : InterfaceDecl :=
  { d with members := d.members ++ [m] }

/-- The interface with one more extended attribute at its end. -/
def InterfaceDecl.annotate (d : InterfaceDecl) (a : Annotation) : InterfaceDecl :=
  { d with annotations := d.annotations ++ [a] }

/-- The mixin with one more member at its end. -/
def MixinDecl.add (d : MixinDecl) (m : Member) : MixinDecl :=
  { d with members := d.members ++ [m] }

/-- The dictionary with one more member at its end, on the line that the
dictionary is on at that time. -/
def DictionaryDecl.add (d : DictionaryDecl) (name : String) (type : TypeExpr) (required : Bool) :
    DictionaryDecl :=
  { d with members := d.members ++ [{ name, type, required, line := d.line }] }

end IdlModel.Syntax
