import Backwire.Wire.View

/-!
# Values of any kind

A `Value` is whatever stands at the end of a string, read without a schema. Lists and messages
are views, so a value can be read although something inside it is malformed.

`validate` looks inside. The elements of a list must lie next to each other and each must fill
its slot; the tags of a message must ascend, and each field must be readable from the data up to
its end; and so on inwards, through no more than `maxDepth` levels.
-/

namespace Backwire.Wire

/-- A value of any kind. -/
inductive Value where
  /-- The absent value. -/
  | undefined
  /-- A value of a builtin type. -/
  | datum (d : Datum)
  /-- The body of a struct, whose fields only a schema knows. -/
  | struct (body : Tail)
  /-- A list. -/
  | list (l : ListView)
  /-- A message. -/
  | message (m : MessageView)

namespace Value

/-- The value at the end of a string. -/
def read : Reader Value := fun t => do
  let ofBuiltin (b : Builtin) : Except WireError (Value × Nat) := do
    let (d, n) ← b.read t
    return (.datum d, n)
  match ← readTag t with
  | .undefined => return (.undefined, 0)
  | .boolTrue | .boolFalse => ofBuiltin .bool
  | .byte => ofBuiltin .byte
  | .int16 => ofBuiltin .int16
  | .int32 => ofBuiltin .int32
  | .int64 => ofBuiltin .int64
  | .uint16 => ofBuiltin .uint16
  | .uint32 => ofBuiltin .uint32
  | .uint64 => ofBuiltin .uint64
  | .bin64 => ofBuiltin .bin64
  | .bin128 => ofBuiltin .bin128
  | .bin256 => ofBuiltin .bin256
  | .float32 => ofBuiltin .float32
  | .float64 => ofBuiltin .float64
  | .bytes => ofBuiltin .bytes
  | .string => ofBuiltin .string
  | .struct => do let (body, n) ← readStruct t; return (.struct body, n)
  | .list | .bigList => do let (l, n) ← readList t; return (.list l, n)
  | .message | .bigMessage => do let (m, n) ← readMessage t; return (.message m, n)

/-- The tag of a value; for lists and messages it tells the layout of the table. -/
def tag : Value → Tag
  | undefined => .undefined
  | datum d => d.tag
  | struct _ => .struct
  | list l => if l.table.big then .bigList else .list
  | message m => if m.table.big then .bigMessage else .message

/-- Equality of values: floating-point numbers compare as numbers, lists and messages by their
data and tables. -/
def same : Value → Value → Bool
  | undefined, undefined => true
  | datum a, datum b => a.same b
  | struct a, struct b => a == b
  | list a, list b => decide (a = b)
  | message a, message b => decide (a = b)
  | _, _ => false

end Value

/-! ### Validation -/

/-- Checks the elements of a list that end at the given offsets, the first one starting at
`start`. Each must use its whole slot. -/
def checkElements (check : Tail → Except WireError Nat) (data : Tail) (start : Nat) :
    List Nat → Except WireError Unit
  | [] => .ok ()
  | stop :: rest =>
    match data.slot start stop with
    | none => .error .invalidTable
    | some slot =>
      match check slot with
      | .error e => .error e
      | .ok n => if n = slot.length then checkElements check data stop rest
        else .error .invalidTable

/-- Checks the fields of a message whose tags must all lie above `last`. -/
def checkFields (check : Tail → Except WireError Nat) (data : Tail) (last : Option UInt16) :
    List Entry → Except WireError Unit
  | [] => .ok ()
  | e :: rest =>
    if last.any fun t => e.tag ≤ t then .error .invalidTable
    else
      match data.upTo e.stop with
      | none => .error .invalidTable
      | some slot =>
        match check slot with
        | .error e => .error e
        | .ok _ => checkFields check data (some e.tag) rest

/-- Checks the value at the end of a string, which may take `levels` levels of slots, and
returns its size. -/
def validateWithin : Nat → Tail → Except WireError Nat
  | 0, _ => .error .depthExceeded
  | levels + 1, t =>
    match Value.read t with
    | .error e => .error e
    | .ok (.list l, n) =>
      match checkElements (validateWithin levels) l.data 0 l.table.stops with
      | .error e => .error e
      | .ok () => .ok n
    | .ok (.message m, n) =>
      match checkFields (validateWithin levels) m.data none m.table.entries with
      | .error e => .error e
      | .ok () => .ok n
    | .ok (_, n) => .ok n

/-- Checks the value at the end of a string with everything inside it, and returns its size. The
value itself is at depth 0, and depth `maxDepth` is the last one allowed. -/
def validate (t : Tail) : Except WireError Nat := validateWithin (maxDepth + 1) t

end Backwire.Wire
