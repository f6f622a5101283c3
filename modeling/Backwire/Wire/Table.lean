import Backwire.Wire.Buffer

/-!
# Tables of lists and messages

Between the data of a list or message and its trailer stands a table that says where each part
ends. The entry of a list is an end offset. The entry of a message is a tag and an end offset,
and the entries are sorted by tag so that a field is found by halving.

Each table has a small and a big layout; all numbers are big-endian.

    list      offset in 2 bytes             offset in 4 bytes
    message   tag in 1, offset in 2 bytes   tag in 2, offset in 4 bytes

A table is kept as its bytes. That it is a whole number of entries is checked when it is built
from bytes; whether its offsets lie in the data is for the views to check.
-/

namespace Backwire.Wire

/-- An entry of a message table. -/
structure Entry where
  /-- The tag of the field. -/
  tag : UInt16
  /-- The offset at which the field's value ends. -/
  stop : Nat
  deriving DecidableEq, Repr

/-! ### Lists -/

/-- The table of a list. -/
structure ListTable where
  /-- The bytes of the table, first byte first. -/
  bytes : List UInt8 := []
  /-- The size of the data that the offsets refer to. -/
  dataSize : Nat := 0
  /-- Whether entries take four bytes. -/
  big : Bool := false
  deriving DecidableEq, Repr

namespace ListTable

/-- The width of an entry. -/
def entryWidth (big : Bool) : Nat := if big then 4 else 2

/-- The big layout is taken for more than 255 elements, and when the last one ends beyond what
two bytes can say. -/
def needsBig (stops : List Nat) : Bool :=
  255 < stops.length || (stops.getLast?.any fun last => 65535 < last)

/-- The bytes of a table; an offset that is too large for its entry loses its high bytes. -/
def encode (big : Bool) (stops : List Nat) : List UInt8 :=
  stops.flatMap (Word.toBytes (entryWidth big))

/-- The numbers of two bytes each. -/
def decodeSmall : List UInt8 → List Nat
  | a :: b :: rest => (256 * a.toNat + b.toNat) :: decodeSmall rest
  | _ => []

/-- The numbers of four bytes each. -/
def decodeBig : List UInt8 → List Nat
  | a :: b :: c :: d :: rest =>
    (256 * (256 * (256 * a.toNat + b.toNat) + c.toNat) + d.toNat) :: decodeBig rest
  | _ => []

/-- A table of whole entries. -/
def ofBytes (bytes : List UInt8) (dataSize : Nat) (big : Bool) : Except WireError ListTable :=
  if bytes.length % entryWidth big = 0 then .ok ⟨bytes, dataSize, big⟩ else .error .invalidTable

/-- How many elements the list has. -/
def length (t : ListTable) : Nat := t.bytes.length / entryWidth t.big

/-- Whether the list has no elements. -/
def isEmpty (t : ListTable) : Bool := t.bytes.isEmpty

/-- The end offsets of all elements, in order. -/
def stops (t : ListTable) : List Nat := if t.big then decodeBig t.bytes else decodeSmall t.bytes

/-- The end offset of an element. -/
def stop? (t : ListTable) (i : Nat) : Option Nat := t.stops[i]?

/-- The offsets between which an element lies: it starts where the one before it ends. -/
def bounds? (t : ListTable) (i : Nat) : Option (Nat × Nat) :=
  match i, t.stop? i with
  | _, none => none
  | 0, some stop => some (0, stop)
  | k + 1, some stop => (t.stop? k).map fun start => (start, stop)

end ListTable

/-! ### Messages -/

/-- The table of a message. -/
structure MessageTable where
  /-- The bytes of the table, first byte first. -/
  bytes : List UInt8 := []
  /-- The size of the data that the offsets refer to. -/
  dataSize : Nat := 0
  /-- Whether entries take six bytes. -/
  big : Bool := false
  deriving DecidableEq, Repr

/-- Halves the range from `lo` up to `hi` until the tag is met or nothing is left. The tag at an
index is what `probe` tells; the search stops where it tells nothing. -/
def bisect (probe : Nat → Option UInt16) (tag : UInt16) (lo hi : Nat) : Option Nat :=
  if lo < hi then
    let mid := lo + (hi - lo) / 2
    match probe mid with
    | none => none
    | some t =>
      if t < tag then bisect probe tag (mid + 1) hi
      else if tag < t then bisect probe tag lo mid
      else some mid
  else none
termination_by hi - lo

namespace MessageTable

/-- The width of an entry. -/
def entryWidth (big : Bool) : Nat := if big then 6 else 3

/-- The big layout is taken when some tag does not fit one byte or some offset two. -/
def needsBig (entries : List Entry) : Bool :=
  entries.any fun e => 255 < e.tag.toNat || 65535 < e.stop

/-- The bytes of an entry. -/
def encodeEntry (big : Bool) (e : Entry) : List UInt8 :=
  if big then Word.toBytes 2 e.tag.toNat ++ Word.toBytes 4 e.stop
  else Word.toBytes 1 e.tag.toNat ++ Word.toBytes 2 e.stop

/-- The bytes of a table; a number that is too large for its place loses its high bytes. -/
def encode (big : Bool) (entries : List Entry) : List UInt8 := entries.flatMap (encodeEntry big)

/-- The entries of three bytes each. -/
def decodeSmall : List UInt8 → List Entry
  | t :: a :: b :: rest => ⟨t.toUInt16, 256 * a.toNat + b.toNat⟩ :: decodeSmall rest
  | _ => []

/-- The entries of six bytes each. -/
def decodeBig : List UInt8 → List Entry
  | s :: t :: a :: b :: c :: d :: rest =>
    ⟨(256 * s.toNat + t.toNat).toUInt16,
      256 * (256 * (256 * a.toNat + b.toNat) + c.toNat) + d.toNat⟩ :: decodeBig rest
  | _ => []

/-- A table of whole entries. -/
def ofBytes (bytes : List UInt8) (dataSize : Nat) (big : Bool) : Except WireError MessageTable :=
  if bytes.length % entryWidth big = 0 then .ok ⟨bytes, dataSize, big⟩ else .error .invalidTable

/-- How many fields the message has. -/
def length (t : MessageTable) : Nat := t.bytes.length / entryWidth t.big

/-- Whether the message has no fields. -/
def isEmpty (t : MessageTable) : Bool := t.bytes.isEmpty

/-- All entries, in the order of the table. -/
def entries (t : MessageTable) : List Entry :=
  if t.big then decodeBig t.bytes else decodeSmall t.bytes

/-- An entry by its place in the table. -/
def entry? (t : MessageTable) (i : Nat) : Option Entry := t.entries[i]?

/-- The end offset of an entry by its place in the table. -/
def stopAtIndex? (t : MessageTable) (i : Nat) : Option Nat := (t.entry? i).map Entry.stop

/-- The tag of an entry, read from its own bytes alone. It is missing only if those bytes do not
all lie in the table. -/
def tagAt? (t : MessageTable) (i : Nat) : Option UInt16 :=
  if t.big then
    match t.bytes[i * 6]?, t.bytes[i * 6 + 1]? with
    | some a, some b => some (256 * a.toNat + b.toNat).toUInt16
    | _, _ => none
  else (t.bytes[i * 3]?).map UInt8.toUInt16

/-- The end offset of an entry, read from its own bytes alone. -/
def stopAt? (t : MessageTable) (i : Nat) : Option Nat :=
  if t.big then
    match t.bytes[i * 6 + 2]?, t.bytes[i * 6 + 3]?, t.bytes[i * 6 + 4]?, t.bytes[i * 6 + 5]? with
    | some a, some b, some c, some d =>
      some (256 * (256 * (256 * a.toNat + b.toNat) + c.toNat) + d.toNat)
    | _, _, _, _ => none
  else
    match t.bytes[i * 3 + 1]?, t.bytes[i * 3 + 2]? with
    | some a, some b => some (256 * a.toNat + b.toNat)
    | _, _ => none

/-- The place of a tag in the table, found by reading tags only. -/
def find? (t : MessageTable) (tag : UInt16) : Option Nat := bisect t.tagAt? tag 0 t.length

/-- Whether the message has a field with the tag. -/
def contains (t : MessageTable) (tag : UInt16) : Bool := (t.find? tag).isSome

/-- The end offset of the field with the tag. -/
def stop? (t : MessageTable) (tag : UInt16) : Option Nat :=
  match t.find? tag with
  | none => none
  | some i => t.stopAt? i

/-- The end offset of the field with the tag, found by reading whole entries. -/
def stopChecked? (t : MessageTable) (tag : UInt16) : Option Nat :=
  match bisect (fun i => (t.entry? i).map Entry.tag) tag 0 t.length with
  | none => none
  | some i => t.stopAtIndex? i

end MessageTable

end Backwire.Wire
