import Backwire.Wire.Encode
import Backwire.Wire.Decode

/-!
# Structs

A struct is a fixed sequence of values, each of a builtin type or a struct again. Its fields are
written in the order of their declaration and closed by a trailer that tells their size. The last
field stands next to the trailer, so they are read in the opposite order, each reader taking its
bytes off the end of the body. Nothing in the bytes names a field or tells how many there are:
both sides have to know the type.
-/

namespace Backwire.Wire

/-- The fields of a struct by their types, in the order of declaration. -/
inductive RecordType where
  /-- No more fields. -/
  | empty
  /-- A field of a builtin type, and the fields after it. -/
  | datum (b : Builtin) (rest : RecordType)
  /-- A field that is a struct, and the fields after it. -/
  | record (inner rest : RecordType)
  deriving DecidableEq, Repr

/-- The fields of a struct by their values, in the order of declaration. -/
inductive Record where
  /-- No more fields. -/
  | empty
  /-- A field of a builtin type, and the fields after it. -/
  | datum (d : Datum) (rest : Record)
  /-- A field that is a struct, and the fields after it. -/
  | record (inner rest : Record)
  deriving DecidableEq

/-- The type a struct belongs to. -/
def Record.type : Record → RecordType
  | empty => .empty
  | datum d rest => .datum d.builtin rest.type
  | record inner rest => .record inner.type rest.type

/-! ### Writing -/

/-- Writes a struct whose fields the given action writes. -/
def writeStruct (fields : Writer Unit) : Writer Nat := do
  let start := (← get).size
  fields
  let n := (← get).size - start
  return n + (← writeStructTrailer n)

/-- Writes the fields of a struct in the order of declaration. -/
def Record.writeFields : Record → Writer Unit
  | empty => return ()
  | datum d rest => do
    let _ ← d.write
    rest.writeFields
  | record inner rest => do
    let _ ← writeStruct inner.writeFields
    rest.writeFields

/-- Writes a struct. -/
def Record.write (r : Record) : Writer Nat := writeStruct r.writeFields

/-! ### Reading -/

/-- Reads a struct whose fields the given action takes off the end of the body. -/
def readStructOf {α : Type} (fields : Tail → Except WireError (α × Tail)) : Reader α := fun t => do
  let (body, n) ← readStruct t
  let (v, _) ← fields body
  return (v, n)

/-- Takes the fields of a struct off the end of a string, the last one first. -/
def RecordType.readFields : RecordType → Tail → Except WireError (Record × Tail)
  | empty, t => .ok (.empty, t)
  | datum b rest, t => do
    let (later, t) ← rest.readFields t
    let (d, n) ← b.read t
    return (.datum d later, t.drop n)
  | record inner rest, t => do
    let (later, t) ← rest.readFields t
    let (r, n) ← readStructOf inner.readFields t
    return (.record r later, t.drop n)

/-- Reads a struct of the given type. -/
def RecordType.read (ty : RecordType) : Reader Record := readStructOf ty.readFields

end Backwire.Wire
