import IdlModel.Proofs.EntityTypes

/-!
# Outlines

The *outline* of an entity is what a script cannot change of it.  It lacks the
exported names, the hidden name, the package, the events and the types that scripts
put in the place of others.

*Parts.*  Each part of an entity lacks what edits can reach, and no more.  What a
dictionary inherits is there as it is, for no edit reaches it.

*Readings.*  Two entities of one outline have the same kind, IDL name, parent and types.
-/

namespace IdlModel

/-! ## Parts -/

/-- An identity without what can be edited. -/
def Identity.outline (i : Identity) : Identity := { i with name := "", internal := "", package := "" }

/-- A constant without its exported name. -/
def Constant.outline (d : Constant) : Constant := { d with name := "" }

/-- An attribute without its exported name and its override. -/
def Attribute.outline (d : Attribute) : Attribute := { d with name := "", typeOverride := none }

/-- A parameter without its override. -/
def Parameter.outline (d : Parameter) : Parameter := { d with typeOverride := none }

/-- A method without its exported name and its override. -/
def Method.outline (d : Method) : Method := { d with name := "", typeOverride := none }

/-- A field without its override. -/
def Field.outline (d : Field) : Field := { d with typeOverride := none }

/-- The outlines of members. -/
def Members.outline (d : Members) : Members :=
  { constants := d.constants.map Constant.outline
    attributes := d.attributes.map Attribute.outline
    staticAttributes := d.staticAttributes.map Attribute.outline
    methods := d.methods.map Method.outline
    staticMethods := d.staticMethods.map Method.outline }

/-! ## Entities -/

/-- An entity without what scripts can change. -/
def Entity.outline : Entity → Entity
  | .interface d =>
      .interface
        { d with identity := d.identity.outline, members := d.members.outline, events := [] }
  | .dictionary d =>
      .dictionary { d with identity := d.identity.outline, members := d.members.map Field.outline }
  | .enumeration d =>
      .enumeration { d with identity := d.identity.outline, namePrefix := "", nameSuffix := "" }
  | .callback d =>
      .callback { d with identity := d.identity.outline, params := d.params.map Parameter.outline }

theorem Entity.outline_withMembers {d : Interface} {m : Members}
    (h : m.outline = d.members.outline) :
    (Entity.interface { d with members := m }).outline = (Entity.interface d).outline := by
  simp only [outline, h]

/-! ## Readings -/

theorem Members.types_outline (d : Members) : d.outline.types = d.types := by
  simp only [types, outline, List.map_map, List.flatMap_map]
  rfl

namespace Entity

theorem kind_outline (e : Entity) : e.outline.kind = e.kind := by cases e <;> rfl

theorem identity_outline (e : Entity) : e.outline.identity = e.identity.outline := by
  cases e <;> rfl

theorem parent?_outline (e : Entity) : e.outline.parent? = e.parent? := by cases e <;> rfl

theorem types_outline (e : Entity) : e.outline.types = e.types := by
  cases e with
  | interface d => simp only [outline, types, Members.types_outline]
  | dictionary d =>
      simp only [outline, types, List.map_append, List.map_map]
      rfl
  | enumeration d => rfl
  | callback d =>
      simp only [outline, types, Parameter.types, List.map_map]
      rfl

variable {e e' : Entity}

theorem kind_eq_of_outline (h : e'.outline = e.outline) : e'.kind = e.kind := by
  rw [← kind_outline, h, kind_outline]

theorem identity_eq_of_outline (h : e'.outline = e.outline) :
    e'.identity.outline = e.identity.outline := by
  rw [← identity_outline, h, identity_outline]

theorem key_eq_of_outline (h : e'.outline = e.outline) : e'.key = e.key := by
  show e'.identity.outline.idl = e.identity.outline.idl
  rw [identity_eq_of_outline h]

theorem template_eq_of_outline (h : e'.outline = e.outline) :
    e'.identity.template = e.identity.template := by
  show e'.identity.outline.template = e.identity.outline.template
  rw [identity_eq_of_outline h]

theorem parent?_eq_of_outline (h : e'.outline = e.outline) : e'.parent? = e.parent? := by
  rw [← parent?_outline, h, parent?_outline]

theorem types_eq_of_outline (h : e'.outline = e.outline) : e'.types = e.types := by
  rw [← types_outline, h, types_outline]

end Entity

end IdlModel
