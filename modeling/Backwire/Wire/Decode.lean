import Backwire.Wire.Builtin
import Backwire.Wire.Table

/-!
# Reading values

A reader looks at the last byte for the tag and walks backwards over sizes and payload. It
returns the value and the number of bytes the value takes; what stands in front of the value is
never looked at. The empty string is the absent value, of which every reader makes the default
of its type without using a byte.

Integers are read at any width that holds them, floating-point numbers in either format.
`readExtent` tells the kind and the size of a value without looking into it.
-/

namespace Backwire.Wire

/-! ### Tags, sizes and regions -/

/-- The kind of value at the end of a string. -/
def readTag : Tail → Except WireError Tag
  | [] => .ok .undefined
  | b :: _ =>
    match Tag.ofByte? b with
    | some tag => .ok tag
    | none => .error (.unknownType b)

/-- A size, which is no larger than `maxSize`. -/
def readSize : Reader Nat := fun t => do
  let (size, n) ← Varint.read32 t
  if size ≤ maxSize then return (size, n) else throw .invalidSize

/-- The sum of the parts of a value, which all lie in a string of `available` bytes. -/
def extent (available : Nat) (parts : List Nat) : Except WireError Nat :=
  let size := total parts
  if size ≤ available ∧ size ≤ maxSize then .ok size else .error .invalidSize

/-- The size of a value of `width` bytes and a tag, which lies in a string of `available`
bytes. -/
def fixedExtent (available width : Nat) : Except WireError Nat :=
  if width + 1 ≤ available then .ok (width + 1) else .error .truncated

/-- The `width` bytes in front of the tag, last byte first, and the size of the value. -/
def readFixed (width : Nat) : Reader Tail := fun t => do
  let size ← fixedExtent t.length width
  return (t.tail.take width, size)

/-- The data in front of a size and the tag, and the size of the value. -/
def readRegion : Reader Tail := fun t => do
  let (size, n) ← readSize t.tail
  let total ← extent t.length [1, n, size]
  return ((t.tail.drop n).take size, total)

/-- The parts of a list or message. -/
structure Sections where
  /-- The data. -/
  data : Tail
  /-- The table, first byte first. -/
  table : List UInt8
  /-- The size of the data. -/
  dataSize : Nat
  deriving DecidableEq

/-- The parts of the list or message at the end of a string, and its size. -/
def readSections : Reader Sections := fun t => do
  let (tableSize, n) ← readSize t.tail
  let rest := t.tail.drop n
  let (dataSize, m) ← readSize rest
  let total ← extent t.length [1, n, m, tableSize, dataSize]
  let rest := rest.drop m
  return (⟨(rest.drop tableSize).take dataSize, (rest.take tableSize).reverse, dataSize⟩, total)

/-- The kind and the size of the value at the end of a string. -/
def readExtent (t : Tail) : Except WireError (Tag × Nat) := do
  let tag ← readTag t
  let size ←
    match tag with
    | .undefined => pure 0
    | .boolTrue | .boolFalse => pure 1
    | .byte => fixedExtent t.length 1
    | .int16 | .int32 | .int64 | .uint16 | .uint32 | .uint64 => do
      let (_, n) ← Varint.read64 t.tail
      pure (1 + n)
    | .bin64 => fixedExtent t.length 8
    | .bin128 => fixedExtent t.length 16
    | .bin256 => fixedExtent t.length 32
    | .float32 => fixedExtent t.length 4
    | .float64 => fixedExtent t.length 8
    | .bytes | .struct => do
      let (size, n) ← readSize t.tail
      extent t.length [1, n, size]
    | .string => do
      let (size, n) ← readSize t.tail
      extent t.length [1, n, size, 1]
    | .list | .bigList | .message | .bigMessage => do
      let (_, total) ← readSections t
      pure total
  return (tag, size)

/-! ### Booleans and integers -/

/-- A boolean. -/
def readBool : Reader Bool := fun t => do
  match ← readTag t with
  | .undefined => return (false, 0)
  | .boolTrue => return (true, 1)
  | .boolFalse => return (false, 1)
  | tag => throw (.invalidType .bool tag)

/-- A signed integer of any width. -/
def readSigned : Reader Int := fun t => do
  let tag ← readTag t
  if tag = .undefined then return (0, 0)
  else if tag.isSigned then
    let (v, n) ← Varint.readSigned64 t.tail
    return (v, n + 1)
  else throw (.invalidType .signed tag)

/-- An unsigned integer of any width; a byte is one too. -/
def readUnsigned : Reader Nat := fun t => do
  let tag ← readTag t
  if tag = .undefined then return (0, 0)
  else if tag = .byte then
    let (payload, n) ← readFixed 1 t
    return (Word.ofTail payload, n)
  else if tag.isUnsigned then
    let (v, n) ← Varint.read64 t.tail
    return (v, n + 1)
  else throw (.invalidType .unsigned tag)

/-- A signed integer from `-limit` up to, and without, `limit`. -/
def readSignedBelow (limit : Int) : Reader Int := fun t => do
  let (v, n) ← readSigned t
  if -limit ≤ v ∧ v < limit then return (v, n) else throw .overflow

/-- An unsigned integer below `limit`. -/
def readUnsignedBelow (limit : Nat) : Reader Nat := fun t => do
  let (v, n) ← readUnsigned t
  if v < limit then return (v, n) else throw .overflow

/-- A byte. An unsigned integer that is small enough is one too. -/
def readByte : Reader UInt8 := fun t => do
  let tag ← readTag t
  if tag = .undefined ∨ tag = .byte ∨ tag.isUnsigned then
    let (v, n) ← readUnsignedBelow 0x100 t
    return (v.toUInt8, n)
  else throw (.invalidType .byte tag)

/-- A signed integer of 16 bits. -/
def readInt16 : Reader Int16 := fun t => do
  let (v, n) ← readSignedBelow 0x8000 t
  return (Int16.ofInt v, n)

/-- A signed integer of 32 bits. -/
def readInt32 : Reader Int32 := fun t => do
  let (v, n) ← readSignedBelow 0x80000000 t
  return (Int32.ofInt v, n)

/-- A signed integer of 64 bits. -/
def readInt64 : Reader Int64 := fun t => do
  let (v, n) ← readSigned t
  return (Int64.ofInt v, n)

/-- An unsigned integer of 16 bits. -/
def readUint16 : Reader UInt16 := fun t => do
  let (v, n) ← readUnsignedBelow 0x10000 t
  return (v.toUInt16, n)

/-- An unsigned integer of 32 bits. -/
def readUint32 : Reader UInt32 := fun t => do
  let (v, n) ← readUnsignedBelow 0x100000000 t
  return (v.toUInt32, n)

/-- An unsigned integer of 64 bits. -/
def readUint64 : Reader UInt64 := fun t => do
  let (v, n) ← readUnsigned t
  return (v.toUInt64, n)

/-! ### Floating-point numbers -/

/-- A number of the larger format. -/
def readFloat64 : Reader Binary64 := fun t => do
  match ← readTag t with
  | .undefined => return (⟨0⟩, 0)
  | .float32 =>
    let (payload, n) ← readFixed 4 t
    return (Binary32.widen ⟨(Word.ofTail payload).toUInt32⟩, n)
  | .float64 =>
    let (payload, n) ← readFixed 8 t
    return (⟨(Word.ofTail payload).toUInt64⟩, n)
  | tag => throw (.invalidType .float tag)

/-- A number of the smaller format. One of the larger format is rounded, unless it lies beyond
the largest finite number. -/
def readFloat32 : Reader Binary32 := fun t => do
  match ← readTag t with
  | .undefined => return (⟨0⟩, 0)
  | .float32 =>
    let (payload, n) ← readFixed 4 t
    return (⟨(Word.ofTail payload).toUInt32⟩, n)
  | .float64 =>
    let (payload, n) ← readFixed 8 t
    let v : Binary64 := ⟨(Word.ofTail payload).toUInt64⟩
    if v.exceeds32 then throw .overflow else return (v.narrow, n)
  | tag => throw (.invalidType .float tag)

/-! ### Bytes and texts -/

/-- An opaque value of `size` bytes. -/
def readBin (size : Nat) (tag : Tag) (expected : Expected) : Reader (Bin size) := fun t => do
  let actual ← readTag t
  if actual = .undefined then return (Bin.zero size, 0)
  else if actual = tag then
    let (payload, n) ← readFixed size t
    return (Bin.ofNat size (Word.ofTail payload), n)
  else throw (.invalidType expected actual)

/-- A byte string. -/
def readBytes : Reader (List UInt8) := fun t => do
  match ← readTag t with
  | .undefined => return ([], 0)
  | .bytes =>
    let (data, n) ← readRegion t
    return (data.toBytes, n)
  | tag => throw (.invalidType .bytes tag)

/-- The body of a struct. -/
def readStruct : Reader Tail := fun t => do
  match ← readTag t with
  | .undefined => return ([], 0)
  | .struct => readRegion t
  | tag => throw (.invalidType .struct tag)

/-- The text with the given bytes in UTF-8. -/
def textOfBytes? (bytes : List UInt8) : Option String := String.fromUTF8? ⟨bytes.toArray⟩

/-- A text. Its closing zero byte must be there. -/
def readString : Reader String := fun t => do
  match ← readTag t with
  | .undefined => return ("", 0)
  | .string =>
    let (size, n) ← readSize t.tail
    let total ← extent t.length [1, n, size, 1]
    match t.tail.drop n with
    | 0 :: rest =>
      match textOfBytes? (rest.take size).reverse with
      | some s => return (s, total)
      | none => throw .invalidString
    | _ => throw .invalidString
  | tag => throw (.invalidType .string tag)

/-! ### Values of a builtin type -/

/-- A value of the given builtin type. -/
def Builtin.read : Builtin → Reader Datum
  | bool, t => do let (v, n) ← readBool t; return (.bool v, n)
  | byte, t => do let (v, n) ← readByte t; return (.byte v, n)
  | int16, t => do let (v, n) ← readInt16 t; return (.int16 v, n)
  | int32, t => do let (v, n) ← readInt32 t; return (.int32 v, n)
  | int64, t => do let (v, n) ← readInt64 t; return (.int64 v, n)
  | uint16, t => do let (v, n) ← readUint16 t; return (.uint16 v, n)
  | uint32, t => do let (v, n) ← readUint32 t; return (.uint32 v, n)
  | uint64, t => do let (v, n) ← readUint64 t; return (.uint64 v, n)
  | bin64, t => do let (v, n) ← readBin 8 .bin64 .bin64 t; return (.bin64 v, n)
  | bin128, t => do let (v, n) ← readBin 16 .bin128 .bin128 t; return (.bin128 v, n)
  | bin256, t => do let (v, n) ← readBin 32 .bin256 .bin256 t; return (.bin256 v, n)
  | float32, t => do let (v, n) ← readFloat32 t; return (.float32 v, n)
  | float64, t => do let (v, n) ← readFloat64 t; return (.float64 v, n)
  | bytes, t => do let (v, n) ← readBytes t; return (.bytes v, n)
  | string, t => do let (v, n) ← readString t; return (.string v, n)

/-! ### Tables -/

/-- The table of a list. -/
def readListTable : Reader ListTable := fun t => do
  let tag ← readTag t
  if tag = .undefined then return ({}, 0)
  else if tag.isList then
    let (parts, n) ← readSections t
    let table ← ListTable.ofBytes parts.table parts.dataSize (tag == .bigList)
    return (table, n)
  else throw (.invalidType .list tag)

/-- The table of a message. -/
def readMessageTable : Reader MessageTable := fun t => do
  let tag ← readTag t
  if tag = .undefined then return ({}, 0)
  else if tag.isMessage then
    let (parts, n) ← readSections t
    let table ← MessageTable.ofBytes parts.table parts.dataSize (tag == .bigMessage)
    return (table, n)
  else throw (.invalidType .message tag)

end Backwire.Wire
