import Backwire.Wire.Bin
import Backwire.Wire.Binary

/-!
# Builtin types and their values

The fifteen types that need no declaration, and `Datum`, a value of one of them. A schema names
these types, and the wire has a tag for each (two for `bool`).
-/

namespace Backwire.Wire

/-- A type that needs no declaration. -/
inductive Builtin where
  | bool
  | byte
  | int16
  | int32
  | int64
  | uint16
  | uint32
  | uint64
  | bin64
  | bin128
  | bin256
  | float32
  | float64
  | bytes
  | string
  deriving DecidableEq, Repr

namespace Builtin

/-- Every builtin type, in the order in which they are listed to users. -/
def all : List Builtin :=
  [.bool, .byte, .int16, .int32, .int64, .uint16, .uint32, .uint64, .bin64, .bin128, .bin256,
    .float32, .float64, .bytes, .string]

/-- The name of a builtin type in a schema. -/
def name : Builtin → String
  | bool => "bool"
  | byte => "byte"
  | int16 => "int16"
  | int32 => "int32"
  | int64 => "int64"
  | uint16 => "uint16"
  | uint32 => "uint32"
  | uint64 => "uint64"
  | bin64 => "bin64"
  | bin128 => "bin128"
  | bin256 => "bin256"
  | float32 => "float32"
  | float64 => "float64"
  | bytes => "bytes"
  | string => "string"

/-- The builtin type of a name, if there is one. -/
def ofName? (s : String) : Option Builtin := all.find? fun b => b.name == s

/-- Whether values of the type hold a bounded number of bytes. -/
def isFixedSize : Builtin → Bool
  | bytes | string => false
  | _ => true

@[simp] theorem ofName?_name (b : Builtin) : ofName? b.name = some b := by cases b <;> decide

end Builtin

/-- A value of a builtin type. -/
inductive Datum where
  | bool (v : Bool)
  | byte (v : UInt8)
  | int16 (v : Int16)
  | int32 (v : Int32)
  | int64 (v : Int64)
  | uint16 (v : UInt16)
  | uint32 (v : UInt32)
  | uint64 (v : UInt64)
  | bin64 (v : Bin 8)
  | bin128 (v : Bin 16)
  | bin256 (v : Bin 32)
  | float32 (v : Binary32)
  | float64 (v : Binary64)
  | bytes (v : List UInt8)
  | string (v : String)
  deriving DecidableEq

namespace Datum

/-- The type a value belongs to. -/
def builtin : Datum → Builtin
  | bool _ => .bool
  | byte _ => .byte
  | int16 _ => .int16
  | int32 _ => .int32
  | int64 _ => .int64
  | uint16 _ => .uint16
  | uint32 _ => .uint32
  | uint64 _ => .uint64
  | bin64 _ => .bin64
  | bin128 _ => .bin128
  | bin256 _ => .bin256
  | float32 _ => .float32
  | float64 _ => .float64
  | bytes _ => .bytes
  | string _ => .string

/-- The tag a value is written with. -/
def tag : Datum → Tag
  | bool true => .boolTrue
  | bool false => .boolFalse
  | byte _ => .byte
  | int16 _ => .int16
  | int32 _ => .int32
  | int64 _ => .int64
  | uint16 _ => .uint16
  | uint32 _ => .uint32
  | uint64 _ => .uint64
  | bin64 _ => .bin64
  | bin128 _ => .bin128
  | bin256 _ => .bin256
  | float32 _ => .float32
  | float64 _ => .float64
  | bytes _ => .bytes
  | string _ => .string

/-- Equality of values as a program compares them: floating-point numbers compare as numbers. -/
def same : Datum → Datum → Bool
  | float32 a, float32 b => a.same b
  | float64 a, float64 b => a.same b
  | a, b => decide (a = b)

end Datum

end Backwire.Wire
