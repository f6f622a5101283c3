import Backwire.Text.Hex
import Backwire.Wire.Tag

/-!
# What can go wrong on the wire

The causes for which a value cannot be read, written, built or accepted, and the text that
reports each of them.
-/

namespace Backwire.Wire

/-- The largest size of an encoded value. -/
def maxSize : Nat := 0x7fffffff

/-- How deep lists and messages may nest in a value that is accepted. -/
def maxDepth : Nat := 128

/-- The size of what is made of parts of these sizes. -/
def total : List Nat → Nat
  | [] => 0
  | n :: rest => n + total rest

/-- What a reader asked for when it met a value of another kind. -/
inductive Expected where
  | bool
  | byte
  | signed
  | unsigned
  | float
  | bin64
  | bin128
  | bin256
  | bytes
  | string
  | struct
  | list
  | message
  deriving DecidableEq, Repr

/-- The kinds a reader accepts, in words. -/
def Expected.describe : Expected → String
  | bool => "bool"
  | byte => "byte"
  | signed => "int16, int32 or int64"
  | unsigned => "byte, uint16, uint32 or uint64"
  | float => "float32 or float64"
  | bin64 => "bin64"
  | bin128 => "bin128"
  | bin256 => "bin256"
  | bytes => "bytes"
  | string => "string"
  | struct => "struct"
  | list => "list"
  | message => "message"

/-- Why a value was refused. -/
inductive WireError where
  /-- The value starts before the first byte. -/
  | truncated
  /-- The value is of another kind than the reader accepts. -/
  | invalidType (expected : Expected) (actual : Tag)
  /-- The last byte is no tag. -/
  | unknownType (byte : UInt8)
  /-- A size is malformed, or reaches before the first byte. -/
  | invalidSize
  /-- A table is no whole number of entries, or an entry points outside the data. -/
  | invalidTable
  /-- A stored number does not fit the width asked for. -/
  | overflow
  /-- The value to be written is larger than `maxSize`. -/
  | sizeExceeded (size : Nat)
  /-- A text is not UTF-8, or its closing zero byte is missing. -/
  | invalidString
  /-- A message was given two values under one tag. -/
  | duplicateTag (tag : UInt16)
  /-- Lists and messages nest deeper than `maxDepth`. -/
  | depthExceeded
  deriving DecidableEq, Repr

/-- The report of an error. -/
def WireError.message : WireError → String
  | truncated => "truncated value"
  | invalidType expected actual =>
    "invalid type: expected " ++ expected.describe ++ ", got " ++ actual.name
  | unknownType byte => "unknown type tag 0x" ++ Text.Hex.encode [byte]
  | invalidSize => "invalid size"
  | invalidTable => "invalid table"
  | overflow => "numeric overflow"
  | sizeExceeded size =>
    "size exceeded: " ++ toString size ++ " bytes, maximum " ++ toString maxSize
  | invalidString => "invalid string"
  | duplicateTag tag => "duplicate field tag " ++ toString tag.toNat
  | depthExceeded => "nesting deeper than " ++ toString maxDepth ++ " levels"

end Backwire.Wire
