import Backwire.Wire.Decode

/-!
# Views of lists and messages

A view holds the data and the table of a list or message. Nothing in the data is looked at when
a view is made; an element or field is read when it is asked for, and only then can its offsets
turn out to lie outside the data.

An element lies between the end of the element before it and its own end. Of a field only the
end is known, since fields are written in any order; its bytes are all the data up to that end,
and a reader stops by itself.
-/

namespace Backwire.Wire

/-! ### Lists -/

/-- A list whose elements are read on demand. -/
structure ListView where
  /-- The data of the elements. -/
  data : Tail := []
  /-- Where the elements end. -/
  table : ListTable := {}
  deriving DecidableEq

/-- The list at the end of a string. -/
def readList : Reader ListView := fun t => do
  let tag ← readTag t
  if tag = .undefined then return ({}, 0)
  else if tag.isList then
    let (parts, n) ← readSections t
    let table ← ListTable.ofBytes parts.table parts.dataSize (tag == .bigList)
    return (⟨parts.data, table⟩, n)
  else throw (.invalidType .list tag)

namespace ListView

/-- The number of elements. -/
def length (l : ListView) : Nat := l.table.length

/-- The bytes of an element, if there is one and its offsets lie in the data. -/
def raw? (l : ListView) (i : Nat) : Option Tail :=
  match l.table.bounds? i with
  | none => none
  | some (start, stop) => l.data.slot start stop

/-- An element, or nothing beyond the last one. -/
def read? {α : Type} (read : Reader α) (l : ListView) (i : Nat) : Except WireError (Option α) :=
  if l.length ≤ i then .ok none
  else
    match l.raw? i with
    | none => .error .invalidTable
    | some slot =>
      match read slot with
      | .error e => .error e
      | .ok (v, _) => .ok (some v)

/-- An element, or nothing if it is missing or malformed. -/
def get? {α : Type} (read : Reader α) (l : ListView) (i : Nat) : Option α :=
  match l.read? read i with
  | .ok v => v
  | .error _ => none

/-- The bytes of the elements that end at the given offsets, the first one starting at
`start`. -/
def slotsFrom (data : Tail) (start : Nat) : List Nat → List (Option Tail)
  | [] => []
  | stop :: rest => data.slot start stop :: slotsFrom data stop rest

/-- The bytes of every element. -/
def slots (l : ListView) : List (Option Tail) := slotsFrom l.data 0 l.table.stops

/-- Every element in turn. -/
def items {α : Type} (read : Reader α) (l : ListView) : List (Except WireError α) :=
  l.slots.map fun
    | none => .error .invalidTable
    | some slot =>
      match read slot with
      | .error e => .error e
      | .ok (v, _) => .ok v

/-- A summary of the table. -/
def summary (l : ListView) : String :=
  "List \x7b len: " ++ toString l.length ++ ", data_size: " ++ toString l.table.dataSize
    ++ ", big: " ++ toString l.table.big ++ " \x7d"

end ListView

/-! ### Messages -/

/-- A message whose fields are read on demand. -/
structure MessageView where
  /-- The data of the fields. -/
  data : Tail := []
  /-- The tags of the fields and where they end. -/
  table : MessageTable := {}
  deriving DecidableEq

/-- The message at the end of a string. -/
def readMessage : Reader MessageView := fun t => do
  let tag ← readTag t
  if tag = .undefined then return ({}, 0)
  else if tag.isMessage then
    let (parts, n) ← readSections t
    let table ← MessageTable.ofBytes parts.table parts.dataSize (tag == .bigMessage)
    return (⟨parts.data, table⟩, n)
  else throw (.invalidType .message tag)

namespace MessageView

/-- The number of fields. -/
def length (m : MessageView) : Nat := m.table.length

/-- Whether there is a field with the tag. -/
def has (m : MessageView) (tag : UInt16) : Bool := m.table.contains tag

/-- The data up to the end of a field, if there is one and its offset lies in the data. -/
def field? (m : MessageView) (tag : UInt16) : Option Tail :=
  match m.table.stop? tag with
  | none => none
  | some stop => m.data.upTo stop

/-- A field, or nothing if the tag is absent. -/
def read? {α : Type} (read : Reader α) (m : MessageView) (tag : UInt16) :
    Except WireError (Option α) :=
  match m.table.stop? tag with
  | none => .ok none
  | some stop =>
    match m.data.upTo stop with
    | none => .error .invalidTable
    | some slot =>
      match read slot with
      | .error e => .error e
      | .ok (v, _) => .ok (some v)

/-- A field, or nothing if it is missing or malformed. -/
def get? {α : Type} (read : Reader α) (m : MessageView) (tag : UInt16) : Option α :=
  match m.read? read tag with
  | .ok v => v
  | .error _ => none

/-- A field, or the default where the tag is absent. -/
def readOr {α : Type} (read : Reader α) (default : α) (m : MessageView) (tag : UInt16) :
    Except WireError α :=
  match m.read? read tag with
  | .error e => .error e
  | .ok v => .ok (v.getD default)

/-- The tags in the order of the table, each with the data up to the field's end. An entry whose
offset lies outside the data is left out. -/
def fields (m : MessageView) : List (UInt16 × Tail) :=
  m.table.entries.filterMap fun e => (m.data.upTo e.stop).map fun slot => (e.tag, slot)

end MessageView

end Backwire.Wire
