import IdlModel.Syntax.DocumentJson

/-!
# Written documents

A document is read back from the JSON value that it is written as.

*Records.*  The keys of a written record are different.  So each field that is read finds the
value that was written under its key, and the kind of a definition or a member, which stands in
the same object, is found in the same way.

*Types.*  A type is an object with one key, and its parts are read by the same rule:
`TypeExpr.ofJson?_toJson`.

*Values.*  Reading fills in what was left out, and writing leaves out nothing.  So what is read
from a value is read again from the value that it is written as.
-/

namespace IdlModel

namespace Json

/-! ## Records -/

section Records

variable {ms : Record} {key other : String} {value : Json}

@[simp] theorem Record.single_cons_of_ne (h : other ≠ key) :
    Record.single ((other, value) :: ms) key = Record.single ms key := by
  unfold single
  rw [List.filter_cons_of_neg (by simpa using h)]

@[simp] theorem Record.single_cons_self (h : ∀ m ∈ ms, m.1 ≠ key) :
    Record.single ((key, value) :: ms) key = some (some value) := by
  have hnone : ms.filter (·.1 == key) = [] := List.filter_eq_nil_iff.mpr (by simpa using h)
  unfold single
  rw [List.filter_cons_of_pos (by simp), hnone]

end Records

attribute [simp] Record.required Record.withDefault Record.optional

@[simp] theorem record?_obj (fields : List String) (ms : Record) :
    (obj ms).record? fields = some ms := rfl

@[simp] theorem tagged?_obj (key : String) (ms : Record) :
    (obj ms).tagged? key = (ms.required key some).map fun tag => (tag, obj ms) := rfl

/-! ## Values -/

@[simp] theorem str?_str (s : String) : (str s).str? = some s := rfl

@[simp] theorem bool?_bool (b : Bool) : (bool b).bool? = some b := rfl

/-- A text that may be missing is written as `null` then. -/
theorem nullable?_ofText? {α : Type} {read? : Json → Option α} {text : α → String}
    (h : ∀ x, read? (str (text x)) = some x) (x : Option α) :
    nullable? read? (ofText? (x.map text)) = some x := by
  cases x with
  | none => rfl
  | some x =>
      show (read? (str (text x))).map some = some (some x)
      rw [h, Option.map_some]

@[simp] theorem nullable?_ofText?_str (s : Option String) :
    nullable? str? (ofText? s) = some s := by
  have hread : ∀ x : String, str? (str (id x)) = some x := str?_str
  simpa using nullable?_ofText? hread s

/-- A list is read if its items are. -/
theorem list?_ofList {α : Type} {item? : Json → Option α} {item : α → Json}
    (h : ∀ x, item? (item x) = some x) (xs : List α) : list? item? (ofList item xs) = some xs := by
  show (xs.map item).mapM item? = some xs
  induction xs with
  | nil => rfl
  | cons x xs ih => simp [h, ih]

@[simp] theorem list?_ofList_str (xs : List String) : list? str? (ofList str xs) = some xs :=
  list?_ofList str?_str xs

end Json

namespace Syntax

open Json

attribute [local simp] argsOf annotationsOf lineOf flagOf

/-- A line is a word of 64 bits. -/
@[simp] theorem word?_lineJson (line : UInt64) : word? (lineJson line) = some line := by
  have hlt : line.toNat < natLimit := line.toNat_lt
  simp [word?, lineJson, nat?, hlt]

/-! ## Types -/

mutual

@[simp] theorem TypeExpr.ofJson?_toJson : ∀ t : TypeExpr, TypeExpr.ofJson? t.toJson = some t
  | .named name => by simp [TypeExpr.toJson, TypeExpr.ofJson?]
  | .sequence element => by
      simp [TypeExpr.toJson, TypeExpr.ofJson?, TypeExpr.ofJson?_toJson element]
  | .record key value => by
      simp [TypeExpr.toJson, TypeExpr.ofJson?, typesOfJson?, typeItems?,
        TypeExpr.ofJson?_toJson key, TypeExpr.ofJson?_toJson value]
  | .generic name args => by
      simp [TypeExpr.toJson, TypeExpr.ofJson?, typesOfJson?, genericArgs?,
        typeItems?_typesToJson args]
  | .union members => by
      simp [TypeExpr.toJson, TypeExpr.ofJson?, typesOfJson?, typeItems?_typesToJson members]
  | .nullable inner => by simp [TypeExpr.toJson, TypeExpr.ofJson?, TypeExpr.ofJson?_toJson inner]

theorem typeItems?_typesToJson : ∀ ts : List TypeExpr, typeItems? (typesToJson ts) = some ts
  | [] => by simp [typesToJson, typeItems?]
  | t :: ts => by
      simp [typesToJson, typeItems?, TypeExpr.ofJson?_toJson t, typeItems?_typesToJson ts]

end

/-! ## Arguments and extended attributes -/

theorem Argument.ofJson?_toJson (a : Argument) : ofJson? a.toJson = some a := by
  simp [ofJson?, toJson]

@[simp] theorem arguments_ofJson? (args : List Argument) :
    list? Argument.ofJson? (ofList Argument.toJson args) = some args :=
  list?_ofList Argument.ofJson?_toJson args

theorem Annotation.ofJson?_toJson (a : Annotation) : ofJson? a.toJson = some a := by
  simp [ofJson?, toJson]

@[simp] theorem annotations_ofJson? (annotations : List Annotation) :
    list? Annotation.ofJson? (ofList Annotation.toJson annotations) = some annotations :=
  list?_ofList Annotation.ofJson?_toJson annotations

/-! ## Members -/

@[simp] theorem nullable?_ofText?_special (s : Option Special) :
    nullable? Special.ofJson? (ofText? (s.map Special.text)) = some s :=
  nullable?_ofText? (fun s => by cases s <;> rfl) s

theorem Member.ofJson?_toJson : ∀ m : Member, ofJson? m.toJson = some m
  | .constant d => by simp [ofJson?, toJson, memberKind?, ConstantMember.ofJson?]
  | .attribute d => by simp [ofJson?, toJson, memberKind?, AttributeMember.ofJson?]
  | .operation d => by simp [ofJson?, toJson, memberKind?, OperationMember.ofJson?]
  | .constructor d => by simp [ofJson?, toJson, memberKind?, ConstructorMember.ofJson?]
  | .iterable line => by simp [ofJson?, toJson, memberKind?]
  | .maplike line => by simp [ofJson?, toJson, memberKind?]
  | .setlike line => by simp [ofJson?, toJson, memberKind?]
  | .stringifier line => by simp [ofJson?, toJson, memberKind?]

@[simp] theorem members_ofJson? (members : List Member) :
    list? Member.ofJson? (ofList Member.toJson members) = some members :=
  list?_ofList Member.ofJson?_toJson members

theorem FieldDecl.ofJson?_toJson (d : FieldDecl) : ofJson? d.toJson = some d := by
  simp [ofJson?, toJson]

@[simp] theorem fields_ofJson? (fields : List FieldDecl) :
    list? FieldDecl.ofJson? (ofList FieldDecl.toJson fields) = some fields :=
  list?_ofList FieldDecl.ofJson?_toJson fields

/-! ## Definitions -/

theorem Definition.ofJson?_toJson (d : Definition) : ofJson? d.toJson = some d := by
  cases d with
  | enumeration d => simp [ofJson?, toJson, EnumerationDecl.ofJson?]
  | interface d => simp [ofJson?, toJson, InterfaceDecl.ofJson?]
  | mixin d => simp [ofJson?, toJson, MixinDecl.ofJson?]
  | dictionary d => simp [ofJson?, toJson, DictionaryDecl.ofJson?]
  | includes d => simp [ofJson?, toJson, IncludesDecl.ofJson?]
  | callback d => simp [ofJson?, toJson, CallbackDecl.ofJson?]
  | typedef d => simp [ofJson?, toJson, TypedefDecl.ofJson?]
  | implementation d => simp [ofJson?, toJson, ImplementationDecl.ofJson?]

theorem definitions_ofJson? (definitions : List Definition) :
    list? Definition.ofJson? (ofList Definition.toJson definitions) = some definitions :=
  list?_ofList Definition.ofJson?_toJson definitions

/-! ## Documents -/

theorem Document.ofJson?_toJson (d : Document) : ofJson? d.toJson = some d := by
  simp [ofJson?, toJson, definitions_ofJson?]

/-- Every document is read back from the value that it is written as.  So reading a value,
writing what was read and reading that again gives what was read at first, or nothing if the
value is no document. -/
theorem document_readBack :
    (∀ d : Document, Document.ofJson? d.toJson = some d) ∧
      ∀ j : Json, ((Document.ofJson? j).bind fun d => Document.ofJson? d.toJson) =
        Document.ofJson? j := by
  refine ⟨Document.ofJson?_toJson, fun j => ?_⟩
  cases Document.ofJson? j with
  | none => rfl
  | some d => exact d.ofJson?_toJson

end Syntax

end IdlModel
