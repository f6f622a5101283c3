/-!
# Type tags

Every encoded value ends with one byte that says what kind of value it is. This module holds the
tags, their bytes and their names. Tags come in groups of ten, so the kinds of one group stay
adjacent; a byte that is not listed here is no tag.
-/

namespace Backwire.Wire

/-- The kind of a value, as its last byte tells it. -/
inductive Tag where
  /-- No value: the tag of an empty string, and of a stored zero byte. -/
  | undefined
  /-- The boolean `true`, without a payload. -/
  | boolTrue
  /-- The boolean `false`, without a payload. -/
  | boolFalse
  /-- One byte. -/
  | byte
  /-- A signed integer of 16 bits. -/
  | int16
  /-- A signed integer of 32 bits. -/
  | int32
  /-- A signed integer of 64 bits. -/
  | int64
  /-- An unsigned integer of 16 bits. -/
  | uint16
  /-- An unsigned integer of 32 bits. -/
  | uint32
  /-- An unsigned integer of 64 bits. -/
  | uint64
  /-- Eight opaque bytes. -/
  | bin64
  /-- Sixteen opaque bytes. -/
  | bin128
  /-- Thirty-two opaque bytes. -/
  | bin256
  /-- A number of the binary32 format. -/
  | float32
  /-- A number of the binary64 format. -/
  | float64
  /-- A byte string. -/
  | bytes
  /-- A text in UTF-8. -/
  | string
  /-- A list whose table has two-byte entries. -/
  | list
  /-- A list whose table has four-byte entries. -/
  | bigList
  /-- A message whose table has three-byte entries. -/
  | message
  /-- A message whose table has six-byte entries. -/
  | bigMessage
  /-- A sequence of values known to a schema only. -/
  | struct
  deriving DecidableEq, Repr

namespace Tag

/-- Every tag, in the order of the bytes. -/
def all : List Tag :=
  [.undefined, .boolTrue, .boolFalse, .byte, .int16, .int32, .int64, .uint16, .uint32, .uint64,
    .bin64, .bin128, .bin256, .float32, .float64, .bytes, .string, .list, .bigList, .message,
    .bigMessage, .struct]

/-- The byte a tag is stored as. -/
def toByte : Tag → UInt8
  | undefined => 0
  | boolTrue => 1
  | boolFalse => 2
  | byte => 3
  | int16 => 10
  | int32 => 11
  | int64 => 12
  | uint16 => 20
  | uint32 => 21
  | uint64 => 22
  | bin64 => 30
  | bin128 => 31
  | bin256 => 32
  | float32 => 40
  | float64 => 41
  | bytes => 50
  | string => 60
  | list => 70
  | bigList => 71
  | message => 80
  | bigMessage => 81
  | struct => 90

/-- The tag stored as `b`, if there is one. -/
def ofByte? (b : UInt8) : Option Tag := all.find? fun t => t.toByte == b

/-- The name of a tag in messages. -/
def name : Tag → String
  | undefined => "undefined"
  | boolTrue => "true"
  | boolFalse => "false"
  | byte => "byte"
  | int16 => "int16"
  | int32 => "int32"
  | int64 => "int64"
  | uint16 => "uint16"
  | uint32 => "uint32"
  | uint64 => "uint64"
  | bin64 => "bin64"
  | bin128 => "bin128"
  | bin256 => "bin256"
  | float32 => "float32"
  | float64 => "float64"
  | bytes => "bytes"
  | string => "string"
  | list => "list"
  | bigList => "biglist"
  | message => "message"
  | bigMessage => "bigmessage"
  | struct => "struct"

/-- The two boolean tags. -/
def isBool : Tag → Bool
  | boolTrue | boolFalse => true
  | _ => false

/-- The signed integers. -/
def isSigned : Tag → Bool
  | int16 | int32 | int64 => true
  | _ => false

/-- The unsigned integers of more than one byte. -/
def isUnsigned : Tag → Bool
  | uint16 | uint32 | uint64 => true
  | _ => false

/-- Lists, of either layout. -/
def isList : Tag → Bool
  | list | bigList => true
  | _ => false

/-- Messages, of either layout. -/
def isMessage : Tag → Bool
  | message | bigMessage => true
  | _ => false

/-- A tag reads back from its byte. -/
@[simp] theorem ofByte?_toByte (t : Tag) : ofByte? t.toByte = some t := by cases t <;> rfl

/-- A byte is read as a tag only if it is that tag's byte. -/
theorem toByte_of_ofByte? {b : UInt8} {t : Tag} (h : ofByte? b = some t) : t.toByte = b := by
  simpa using List.find?_some h

end Tag

end Backwire.Wire
