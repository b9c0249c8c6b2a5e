/-!
# Primitive types

The types that every interface definition knows.  Each has a spelling in the
definitions and a name in the generated code.  Both are read off one table.
`DOMString` and `USVString` are two spellings of one type in the generated
code, and each is the *alias* of the other.
-/

namespace IdlModel

/-- The primitive types. -/
inductive Primitive where
  | boolean | byte | octet
  | short | unsignedShort | long | unsignedLong | longLong | unsignedLongLong
  | float | unrestrictedFloat | double | unrestrictedDouble
  | bigInt | domString | byteString | usvString | object | symbol
  | arrayBuffer | arrayBufferView | bufferSource | dataView
  | int8Array | int16Array | int32Array
  | uint8Array | uint16Array | uint32Array | uint8ClampedArray
  | float32Array | float64Array | bigInt64Array | bigUint64Array
deriving DecidableEq, Repr

namespace Primitive

/-- What is known of a primitive type. -/
structure Entry where
  /-- The spelling in the definitions. -/
  idl : String
  /-- The name in the generated code. -/
  display : String
  /-- The name of the type in the written model. -/
  tag : String

/-- The table of the primitive types. -/
def entry : Primitive → Entry
  | boolean => ⟨"boolean", "Bool", "Boolean"⟩
  | byte => ⟨"byte", "Int8", "Byte"⟩
  | octet => ⟨"octet", "Uint8", "Octet"⟩
  | short => ⟨"short", "Int16", "Short"⟩
  | unsignedShort => ⟨"unsigned short", "Uint16", "UnsignedShort"⟩
  | long => ⟨"long", "Int", "Long"⟩
  | unsignedLong => ⟨"unsigned long", "Uint", "UnsignedLong"⟩
  | longLong => ⟨"long long", "Int64", "LongLong"⟩
  | unsignedLongLong => ⟨"unsigned long long", "Uint64", "UnsignedLongLong"⟩
  | float => ⟨"float", "Float32", "Float"⟩
  | unrestrictedFloat => ⟨"unrestricted float", "Float32", "UnrestrictedFloat"⟩
  | double => ⟨"double", "Float64", "Double"⟩
  | unrestrictedDouble => ⟨"unrestricted double", "Float64", "UnrestrictedDouble"⟩
  | bigInt => ⟨"bigint", "BigInt", "BigInt"⟩
  | domString => ⟨"DOMString", "String", "DomString"⟩
  | byteString => ⟨"ByteString", "ByteString", "ByteString"⟩
  | usvString => ⟨"USVString", "String", "UsvString"⟩
  | object => ⟨"object", "Object", "Object"⟩
  | symbol => ⟨"symbol", "Symbol", "Symbol"⟩
  | arrayBuffer => ⟨"ArrayBuffer", "ArrayBuffer", "ArrayBuffer"⟩
  | arrayBufferView => ⟨"ArrayBufferView", "ArrayBufferView", "ArrayBufferView"⟩
  | bufferSource => ⟨"BufferSource", "BufferSource", "BufferSource"⟩
  | dataView => ⟨"DataView", "DataView", "DataView"⟩
  | int8Array => ⟨"Int8Array", "Int8Array", "Int8Array"⟩
  | int16Array => ⟨"Int16Array", "Int16Array", "Int16Array"⟩
  | int32Array => ⟨"Int32Array", "Int32Array", "Int32Array"⟩
  | uint8Array => ⟨"Uint8Array", "Uint8Array", "Uint8Array"⟩
  | uint16Array => ⟨"Uint16Array", "Uint16Array", "Uint16Array"⟩
  | uint32Array => ⟨"Uint32Array", "Uint32Array", "Uint32Array"⟩
  | uint8ClampedArray => ⟨"Uint8ClampedArray", "Uint8ClampedArray", "Uint8ClampedArray"⟩
  | float32Array => ⟨"Float32Array", "Float32Array", "Float32Array"⟩
  | float64Array => ⟨"Float64Array", "Float64Array", "Float64Array"⟩
  | bigInt64Array => ⟨"BigInt64Array", "BigInt64Array", "BigInt64Array"⟩
  | bigUint64Array => ⟨"BigUint64Array", "BigUint64Array", "BigUint64Array"⟩

/-- Every primitive type. -/
def all : List Primitive :=
  [boolean, byte, octet, short, unsignedShort, long, unsignedLong, longLong, unsignedLongLong,
    float, unrestrictedFloat, double, unrestrictedDouble, bigInt, domString, byteString, usvString,
    object, symbol, arrayBuffer, arrayBufferView, bufferSource, dataView, int8Array, int16Array,
    int32Array, uint8Array, uint16Array, uint32Array, uint8ClampedArray, float32Array,
    float64Array, bigInt64Array, bigUint64Array]

/-- The spelling in the definitions. -/
def idlName (p : Primitive) : String := p.entry.idl

/-- The name in the generated code. -/
def displayName (p : Primitive) : String := p.entry.display

/-- The name in the written model. -/
def tag (p : Primitive) : String := p.entry.tag

/-- The primitive type of a spelling. -/
def ofIdl? (name : String) : Option Primitive := all.find? (·.idlName == name)

/-- The other spelling of the string type. -/
def alias? : Primitive → Option Primitive
  | domString => some usvString
  | usvString => some domString
  | _ => none

/-- The list is complete. -/
theorem mem_all (p : Primitive) : p ∈ all := by cases p <;> decide

/-- A spelling is read back. -/
theorem ofIdl?_idlName (p : Primitive) : ofIdl? p.idlName = some p := by cases p <;> decide

end Primitive

end IdlModel
