import Backwire.Wire.Builtin
import Backwire.Wire.Table

/-!
# Writing values

Each writer adds `payload ++ sizes ++ tag` to a buffer and returns the number of bytes this
takes. A value of bounded size is always written. A value of any other size is refused if it, or
a region of it, would be larger than `maxSize`; the sizes are settled before the first byte is
written.

    scalar    payload                                  | tag
    bytes     data         | varint of size            | tag
    string    data | 0     | varint of size            | tag
    struct    body         | varint of size            | tag
    list      data | table | varints of data and table | tag
    message   data | table | varints of data and table | tag
-/

namespace Backwire.Wire

/-! ### Sizes -/

/-- A region of a value, reported as `reported` if it is too large. -/
def regionSize (size reported : Nat) : Except WireError Nat :=
  if size ≤ maxSize then .ok size else .error (.sizeExceeded reported)

/-- The sum of the parts of a value. -/
def totalSize (parts : List Nat) : Except WireError Nat := regionSize (total parts) (total parts)

/-- The size of an encoded byte string of `n` bytes. -/
def bytesExtent (n : Nat) : Except WireError Nat := do
  let size ← regionSize n n
  totalSize [size, Varint.width size, 1]

/-- The size of an encoded text of `n` bytes. -/
def stringExtent (n : Nat) : Except WireError Nat := do
  let size ← regionSize n n
  totalSize [size, 1, Varint.width size, 1]

/-- The size of what follows the `n` bytes of a struct. -/
def structTrailer (n : Nat) : Except WireError Nat := do
  let size ← regionSize n n
  let trailer := Varint.width size + 1
  let _ ← totalSize [size, trailer]
  return trailer

/-- The size of what follows the data of a list or message: the table and its trailer. -/
def tableTrailer (data table : Nat) : Except WireError Nat := do
  let data ← regionSize data data
  let table ← regionSize table (data + table)
  let trailer ← totalSize [table, Varint.width data, Varint.width table, 1]
  let _ ← totalSize [data, trailer]
  return trailer

/-! ### Scalars -/

/-- Writes a signed integer. -/
def writeSigned (v : Int) (tag : Tag) : Writer Nat := do
  modify fun buf => (buf.writeVarint (Varint.zigzag v)).push tag.toByte
  return Varint.width (Varint.zigzag v) + 1

/-- Writes an unsigned integer. -/
def writeUnsigned (v : Nat) (tag : Tag) : Writer Nat := do
  modify fun buf => (buf.writeVarint v).push tag.toByte
  return Varint.width v + 1

/-- Writes bytes of which every value of the type has the same number. -/
def writeFixed (payload : List UInt8) (tag : Tag) : Writer Nat := do
  modify fun buf => (buf.write payload).push tag.toByte
  return payload.length + 1

/-! ### Values of any size -/

/-- Writes a byte string. -/
def writeBytes (v : List UInt8) : Writer Nat := do
  let total ← Writer.ofExcept (bytesExtent v.length)
  modify fun buf => ((buf.write v).writeVarint v.length).push Tag.bytes.toByte
  return total

/-- Writes a text and the zero byte that closes it. -/
def writeString (s : String) : Writer Nat := do
  let v := s.toUTF8.data.toList
  let total ← Writer.ofExcept (stringExtent v.length)
  modify fun buf => (((buf.write v).push 0).writeVarint v.length).push Tag.string.toByte
  return total

/-- Closes a struct whose `n` bytes were written before. -/
def writeStructTrailer (n : Nat) : Writer Nat := do
  let trailer ← Writer.ofExcept (structTrailer n)
  modify fun buf => (buf.writeVarint n).push Tag.struct.toByte
  return trailer

/-- Closes a list or message whose `n` bytes of data were written before. -/
def writeTable (n : Nat) (table : List UInt8) (tag : Tag) : Writer Nat := do
  let trailer ← Writer.ofExcept (tableTrailer n table.length)
  modify fun buf => (((buf.write table).writeVarint n).writeVarint table.length).push tag.toByte
  return trailer

/-- Closes a list whose elements end at `stops`. -/
def writeListTable (n : Nat) (stops : List Nat) : Writer Nat :=
  let big := ListTable.needsBig stops
  writeTable n (ListTable.encode big stops) (if big then .bigList else .list)

/-- Closes a message with the given fields, which are sorted by tag. -/
def writeMessageTable (n : Nat) (entries : List Entry) : Writer Nat :=
  let big := MessageTable.needsBig entries
  writeTable n (MessageTable.encode big entries) (if big then .bigMessage else .message)

/-- Writes a value of a builtin type. -/
def Datum.write : Datum → Writer Nat
  | bool v => writeFixed [] (if v then .boolTrue else .boolFalse)
  | byte v => writeFixed [v] .byte
  | int16 v => writeSigned v.toInt .int16
  | int32 v => writeSigned v.toInt .int32
  | int64 v => writeSigned v.toInt .int64
  | uint16 v => writeUnsigned v.toNat .uint16
  | uint32 v => writeUnsigned v.toNat .uint32
  | uint64 v => writeUnsigned v.toNat .uint64
  | bin64 v => writeFixed v.bytes .bin64
  | bin128 v => writeFixed v.bytes .bin128
  | bin256 v => writeFixed v.bytes .bin256
  | float32 v => writeFixed (Word.toBytes 4 v.bits.toNat) .float32
  | float64 v => writeFixed (Word.toBytes 8 v.bits.toNat) .float64
  | bytes v => writeBytes v
  | string v => writeString v

/-! ### Whole lists -/

/-- The distance from where a list or message starts to where a part of it ends. An offset takes
at most four bytes. -/
def relativeStop (start stop : Nat) : Except WireError Nat :=
  if stop - start < 0x100000000 then .ok (stop - start) else .error (.sizeExceeded (stop - start))

/-- Writes elements of a list that starts at `start` and returns where each of them ends. -/
def writeElements {α : Type} (write : α → Writer Nat) (start : Nat) : List α → Writer (List Nat)
  | [] => return []
  | a :: rest => do
    let _ ← write a
    let stop ← Writer.ofExcept (relativeStop start (← get).size)
    return stop :: (← writeElements write start rest)

/-- Writes a whole list. If an element or the table is refused, the buffer is as it was. -/
def writeList {α : Type} (write : α → Writer Nat) (items : List α) : Writer Nat := fun buf =>
  let start := buf.size
  let attempt : Writer Nat := do
    let stops ← writeElements write start items
    let size := (← get).size - start
    return size + (← writeListTable size stops)
  match attempt buf with
  | .ok n buf' => .ok n buf'
  | .error e buf' => .error e (buf'.truncate start)

end Backwire.Wire
