import Backwire.Wire.Record
import Backwire.Proofs.Wire.Payload

/-!
# Everything that is read

`Reading` lists what can be read off the end of a string: the extent of a value, a value of each
builtin type, the body of a struct, tables and views, a value of any kind, its validation, and a
struct of a given type. Each of these readers is written for itself. That they all take off one
payload and make something of it is `Reading.run_eq`, by which a law is proved of all of them at
once.
-/

namespace Backwire.Wire

open Tail

/-! ### Makers -/

namespace Maker

variable {α β : Type}

/-- Reports another expectation where a tag is refused. -/
def expecting (make : Maker α) (expected : Expected) : Maker α := fun tag =>
  match make tag with
  | .error _ => .error expected
  | .ok make => .ok make

/-- The tag alone. -/
def extent : Maker Tag := fun tag => .ok fun _ => .ok tag

def bool : Maker Bool
  | .undefined | .boolFalse => .ok fun _ => .ok false
  | .boolTrue => .ok fun _ => .ok true
  | _ => .error .bool

def signed : Maker Int
  | .undefined => .ok fun _ => .ok 0
  | .int16 | .int32 | .int64 => .ok fun v => .ok (Varint.unzigzag v)
  | _ => .error .signed

def unsigned : Maker Nat
  | .undefined => .ok fun _ => .ok 0
  | .byte => .ok fun p => .ok (Word.ofTail p)
  | .uint16 | .uint32 | .uint64 => .ok fun v => .ok v
  | _ => .error .unsigned

/-- A signed integer from `-limit` up to, and without, `limit`. -/
def signedBelow (limit : Int) : Maker Int :=
  signed.bind fun v => if -limit ≤ v ∧ v < limit then .ok v else .error .overflow

/-- An unsigned integer below `limit`. -/
def unsignedBelow (limit : Nat) : Maker Nat :=
  unsigned.bind fun v => if v < limit then .ok v else .error .overflow

def float64 : Maker Binary64
  | .undefined => .ok fun _ => .ok ⟨0⟩
  | .float32 => .ok fun p => .ok (Binary32.widen ⟨(Word.ofTail p).toUInt32⟩)
  | .float64 => .ok fun p => .ok ⟨(Word.ofTail p).toUInt64⟩
  | _ => .error .float

/-- Rounds a number of the larger format, unless it lies beyond the smaller one. -/
def narrow (v : Binary64) : Except WireError Binary32 :=
  if v.exceeds32 then .error .overflow else .ok v.narrow

def float32 : Maker Binary32
  | .undefined => .ok fun _ => .ok ⟨0⟩
  | .float32 => .ok fun p => .ok ⟨(Word.ofTail p).toUInt32⟩
  | .float64 => .ok fun p => narrow ⟨(Word.ofTail p).toUInt64⟩
  | _ => .error .float

def bin64 : Maker (Bin 8)
  | .undefined => .ok fun _ => .ok (Bin.zero 8)
  | .bin64 => .ok fun p => .ok (Bin.ofNat 8 (Word.ofTail p))
  | _ => .error .bin64

def bin128 : Maker (Bin 16)
  | .undefined => .ok fun _ => .ok (Bin.zero 16)
  | .bin128 => .ok fun p => .ok (Bin.ofNat 16 (Word.ofTail p))
  | _ => .error .bin128

def bin256 : Maker (Bin 32)
  | .undefined => .ok fun _ => .ok (Bin.zero 32)
  | .bin256 => .ok fun p => .ok (Bin.ofNat 32 (Word.ofTail p))
  | _ => .error .bin256

def bytes : Maker (List UInt8)
  | .undefined => .ok fun _ => .ok []
  | .bytes => .ok fun data => .ok (toBytes data)
  | _ => .error .bytes

/-- The text in front of a closing zero byte. -/
def closedText : Tail → Except WireError String
  | 0 :: text =>
    match textOfBytes? (toBytes text) with
    | some s => .ok s
    | none => .error .invalidString
  | _ => .error .invalidString

def string : Maker String
  | .undefined => .ok fun _ => .ok ""
  | .string => .ok closedText
  | _ => .error .string

def struct : Maker Tail
  | .undefined => .ok fun _ => .ok []
  | .struct => .ok fun body => .ok body
  | _ => .error .struct

/-- The list with the given parts, if its table is whole. -/
def listOf (big : Bool) (s : Sections) : Except WireError ListView := do
  let table ← ListTable.ofBytes s.table s.dataSize big
  return ⟨s.data, table⟩

def list : Maker ListView
  | .undefined => .ok fun _ => .ok {}
  | .list => .ok (listOf false)
  | .bigList => .ok (listOf true)
  | _ => .error .list

/-- The message with the given parts, if its table is whole. -/
def messageOf (big : Bool) (s : Sections) : Except WireError MessageView := do
  let table ← MessageTable.ofBytes s.table s.dataSize big
  return ⟨s.data, table⟩

def message : Maker MessageView
  | .undefined => .ok fun _ => .ok {}
  | .message => .ok (messageOf false)
  | .bigMessage => .ok (messageOf true)
  | _ => .error .message

def builtin : Builtin → Maker Datum
  | .bool => bool.map .bool
  | .byte => ((unsignedBelow 0x100).expecting .byte).map fun v => .byte v.toUInt8
  | .int16 => (signedBelow 0x8000).map fun v => .int16 (Int16.ofInt v)
  | .int32 => (signedBelow 0x80000000).map fun v => .int32 (Int32.ofInt v)
  | .int64 => signed.map fun v => .int64 (Int64.ofInt v)
  | .uint16 => (unsignedBelow 0x10000).map fun v => .uint16 v.toUInt16
  | .uint32 => (unsignedBelow 0x100000000).map fun v => .uint32 v.toUInt32
  | .uint64 => unsigned.map fun v => .uint64 v.toUInt64
  | .bin64 => bin64.map .bin64
  | .bin128 => bin128.map .bin128
  | .bin256 => bin256.map .bin256
  | .float32 => float32.map .float32
  | .float64 => float64.map .float64
  | .bytes => bytes.map .bytes
  | .string => string.map .string

/-- A value of the kind that its tag tells. -/
def value : Maker Value
  | .undefined => .ok fun _ => .ok .undefined
  | .boolTrue => (builtin .bool).map .datum .boolTrue
  | .boolFalse => (builtin .bool).map .datum .boolFalse
  | .byte => (builtin .byte).map .datum .byte
  | .int16 => (builtin .int16).map .datum .int16
  | .int32 => (builtin .int32).map .datum .int32
  | .int64 => (builtin .int64).map .datum .int64
  | .uint16 => (builtin .uint16).map .datum .uint16
  | .uint32 => (builtin .uint32).map .datum .uint32
  | .uint64 => (builtin .uint64).map .datum .uint64
  | .bin64 => (builtin .bin64).map .datum .bin64
  | .bin128 => (builtin .bin128).map .datum .bin128
  | .bin256 => (builtin .bin256).map .datum .bin256
  | .float32 => (builtin .float32).map .datum .float32
  | .float64 => (builtin .float64).map .datum .float64
  | .bytes => (builtin .bytes).map .datum .bytes
  | .string => (builtin .string).map .datum .string
  | .struct => struct.map .struct .struct
  | .list => list.map .list .list
  | .bigList => list.map .list .bigList
  | .message => message.map .message .message
  | .bigMessage => message.map .message .bigMessage

end Maker

/-! ### Readers as makers -/

theorem readExtent_eq (t : Tail) : readExtent t = Maker.extent.read t := by
  unfold readExtent Maker.read
  refine bind_congr fun tag => ?_
  cases tag <;>
    simp only [Maker.under, Maker.extent, readPayload, readFixed, readNumber, readRegion, readText,
      ok_bind, bind_assoc, pure_bind, Nat.add_comm 1]

theorem readBool_eq (t : Tail) : readBool t = Maker.bool.read t := by
  unfold readBool Maker.read
  refine bind_congr fun tag => ?_
  cases tag <;> rfl

theorem readSigned_eq (t : Tail) : readSigned t = Maker.signed.read t := by
  unfold readSigned Maker.read
  refine bind_congr fun tag => ?_
  cases tag
  case int16 | int32 | int64 =>
    simp only [Maker.under, Maker.signed, readPayload, readNumber, Varint.readSigned64]
    cases Varint.read64 t.tail <;> rfl
  all_goals rfl

theorem readUnsigned_eq (t : Tail) : readUnsigned t = Maker.unsigned.read t := by
  unfold readUnsigned Maker.read
  refine bind_congr fun tag => ?_
  cases tag
  case uint16 | uint32 | uint64 =>
    simp only [Maker.under, Maker.unsigned, readPayload, readNumber]
    cases Varint.read64 t.tail <;> rfl
  all_goals rfl

theorem readSignedBelow_eq (limit : Int) (t : Tail) :
    readSignedBelow limit t = (Maker.signedBelow limit).read t := by
  rw [readSignedBelow, readSigned_eq, Maker.signedBelow, Maker.read_bind]
  refine bind_congr fun r => ?_
  obtain ⟨v, n⟩ := r
  dsimp only
  split <;> rfl

theorem readUnsignedBelow_eq (limit : Nat) (t : Tail) :
    readUnsignedBelow limit t = (Maker.unsignedBelow limit).read t := by
  rw [readUnsignedBelow, readUnsigned_eq, Maker.unsignedBelow, Maker.read_bind]
  refine bind_congr fun r => ?_
  obtain ⟨v, n⟩ := r
  dsimp only
  split <;> rfl

theorem readByte_eq (t : Tail) :
    readByte t = (((Maker.unsignedBelow 0x100).expecting .byte).map Nat.toUInt8).read t := by
  cases h : readTag t with
  | error e => rw [readByte, Maker.read, h, error_bind, error_bind]
  | ok tag =>
    rw [readByte, h, ok_bind, readUnsignedBelow_eq, Maker.read_of_readTag _ h,
      Maker.read_of_readTag _ h, Maker.under_map]
    cases tag <;> rfl

theorem readFloat64_eq (t : Tail) : readFloat64 t = Maker.float64.read t := by
  unfold readFloat64 Maker.read
  refine bind_congr fun tag => ?_
  cases tag <;> rfl

theorem readFloat32_eq (t : Tail) : readFloat32 t = Maker.float32.read t := by
  unfold readFloat32 Maker.read
  refine bind_congr fun tag => ?_
  cases tag
  case float64 =>
    change readFixed 8 t >>= _ = readFixed 8 t >>= _
    refine bind_congr fun r => ?_
    obtain ⟨p, n⟩ := r
    dsimp only [Maker.narrow]
    split <;> rfl
  all_goals rfl

theorem readBin64_eq (t : Tail) : readBin 8 .bin64 .bin64 t = Maker.bin64.read t := by
  unfold readBin Maker.read
  refine bind_congr fun tag => ?_
  cases tag <;> rfl

theorem readBin128_eq (t : Tail) : readBin 16 .bin128 .bin128 t = Maker.bin128.read t := by
  unfold readBin Maker.read
  refine bind_congr fun tag => ?_
  cases tag <;> rfl

theorem readBin256_eq (t : Tail) : readBin 32 .bin256 .bin256 t = Maker.bin256.read t := by
  unfold readBin Maker.read
  refine bind_congr fun tag => ?_
  cases tag <;> rfl

theorem readBytes_eq (t : Tail) : readBytes t = Maker.bytes.read t := by
  unfold readBytes Maker.read
  refine bind_congr fun tag => ?_
  cases tag <;> rfl

theorem readStruct_eq (t : Tail) : readStruct t = Maker.struct.read t := by
  unfold readStruct Maker.read
  refine bind_congr fun tag => ?_
  cases tag
  case struct => exact (bind_pure (readRegion t)).symm
  all_goals rfl

/-- The closing byte and the text are looked at together or one after the other. -/
theorem closedText_take (rest : Tail) (size total : Nat) :
    (match rest with
      | 0 :: rest =>
        match textOfBytes? (rest.take size).reverse with
        | some s => pure (s, total)
        | none => throw WireError.invalidString
      | _ => throw WireError.invalidString : Except WireError (String × Nat)) =
    (do let s ← Maker.closedText (rest.take (size + 1)); return (s, total)) := by
  cases rest with
  | nil => rfl
  | cons b rest =>
    rw [List.take_succ_cons]
    by_cases hb : b = 0
    · subst hb
      simp only [Maker.closedText, toBytes]
      split <;> rfl
    · have htext : Maker.closedText (b :: rest.take size) = .error .invalidString := by
        unfold Maker.closedText
        split
        · rename_i heq
          exact absurd (List.cons.inj heq).1 hb
        · rfl
      rw [htext]
      split
      · rename_i heq
        exact absurd (List.cons.inj heq).1 hb
      · rfl

theorem readString_eq (t : Tail) : readString t = Maker.string.read t := by
  unfold readString Maker.read
  refine bind_congr fun tag => ?_
  cases tag
  case string =>
    simp only [Maker.under, Maker.string, readPayload, readText, bind_assoc, pure_bind]
    refine bind_congr fun r => ?_
    obtain ⟨size, n⟩ := r
    exact bind_congr fun total => closedText_take _ size total
  all_goals rfl

theorem readList_eq (t : Tail) : readList t = Maker.list.read t := by
  unfold readList Maker.read
  refine bind_congr fun tag => ?_
  cases tag
  case list | bigList =>
    simp only [Maker.under, Maker.list, Maker.listOf, bind_assoc, pure_bind]
    rfl
  all_goals rfl

theorem readMessage_eq (t : Tail) : readMessage t = Maker.message.read t := by
  unfold readMessage Maker.read
  refine bind_congr fun tag => ?_
  cases tag
  case message | bigMessage =>
    simp only [Maker.under, Maker.message, Maker.messageOf, bind_assoc, pure_bind]
    rfl
  all_goals rfl

theorem readListTable_eq (t : Tail) :
    readListTable t = (Maker.list.map ListView.table).read t := by
  unfold readListTable Maker.read
  refine bind_congr fun tag => ?_
  cases tag
  case list | bigList =>
    rw [Maker.under_map]
    simp only [Maker.under, Maker.list, Maker.listOf, bind_assoc, pure_bind]
    rfl
  all_goals rfl

theorem readMessageTable_eq (t : Tail) :
    readMessageTable t = (Maker.message.map MessageView.table).read t := by
  unfold readMessageTable Maker.read
  refine bind_congr fun tag => ?_
  cases tag
  case message | bigMessage =>
    rw [Maker.under_map]
    simp only [Maker.under, Maker.message, Maker.messageOf, bind_assoc, pure_bind]
    rfl
  all_goals rfl

theorem Builtin.read_eq (b : Builtin) (t : Tail) : b.read t = (Maker.builtin b).read t := by
  cases b <;>
    simp only [Builtin.read, Maker.builtin, Maker.read_map, bind_assoc, pure_bind, readBool_eq,
      readByte_eq, readInt16, readInt32, readInt64, readSignedBelow_eq, readSigned_eq, readUint16,
      readUint32, readUint64, readUnsignedBelow_eq, readUnsigned_eq, readBin64_eq, readBin128_eq,
      readBin256_eq, readFloat32_eq, readFloat64_eq, readBytes_eq, readString_eq]

theorem Value.read_eq (t : Tail) : Value.read t = Maker.value.read t := by
  unfold Value.read Maker.read
  cases h : readTag t with
  | error e => rfl
  | ok tag =>
    have hmap {α : Type} (make : Maker α) (f : α → Value) :
        (make.read t >>= fun r => pure (f r.1, r.2)) = (make.map f).under tag t := by
      rw [make.read_of_readTag h, Maker.under_map]
    simp only [ok_bind, Builtin.read_eq, readStruct_eq, readList_eq, readMessage_eq, hmap]
    cases tag <;> rfl

/-- What validation asks of the parts of a value. -/
def Value.check (check : Tail → Except WireError Nat) : Value → Except WireError Unit
  | list l => checkElements check l.data 0 l.table.stops
  | message m => checkFields check m.data none m.table.entries
  | undefined | datum _ | struct _ => .ok ()

/-- A value whose parts are validated. -/
def Maker.validation (levels : Nat) : Maker Unit := value.bind (Value.check (validateWithin levels))

/-- One level of validation reads a value and checks its parts one level below. -/
theorem validateWithin_succ_eq (levels : Nat) (t : Tail) :
    validateWithin (levels + 1) t = (do
      let (_, n) ← (Maker.validation levels).read t
      return n) := by
  rw [Maker.validation, Maker.read_bind, ← Value.read_eq, validateWithin]
  cases Value.read t with
  | error e => rfl
  | ok r =>
    obtain ⟨v, n⟩ := r
    cases v with
    | undefined | datum _ | struct _ => rfl
    | list l =>
      simp only [ok_bind, Value.check]
      cases checkElements (validateWithin levels) l.data 0 l.table.stops <;> rfl
    | message m =>
      simp only [ok_bind, Value.check]
      cases checkFields (validateWithin levels) m.data none m.table.entries <;> rfl

/-- A struct whose fields fill its body from the end. -/
def Maker.record (ty : RecordType) : Maker Record :=
  struct.bind fun body => do
    let (r, _) ← ty.readFields body
    return r

theorem RecordType.read_eq (ty : RecordType) (t : Tail) :
    ty.read t = (Maker.record ty).read t := by
  rw [RecordType.read, readStructOf, readStruct_eq, Maker.record, Maker.read_bind]
  simp only [bind_assoc, pure_bind]

/-! ### All of them -/

/-- What is asked for at the end of a string. -/
inductive Reading where
  /-- The tag and the size of a value. -/
  | extent
  /-- A value of a builtin type. -/
  | builtin (b : Builtin)
  /-- The body of a struct. -/
  | struct
  /-- The table of a list. -/
  | listTable
  /-- The table of a message. -/
  | messageTable
  /-- A view of a list. -/
  | list
  /-- A view of a message. -/
  | message
  /-- A value of any kind. -/
  | value
  /-- That a value is valid with everything inside it. -/
  | validation
  /-- A struct of a given type. -/
  | record (ty : RecordType)

namespace Reading

/-- What is read. -/
abbrev Result : Reading → Type
  | extent => Tag
  | builtin _ => Datum
  | struct => Tail
  | listTable => ListTable
  | messageTable => MessageTable
  | list => ListView
  | message => MessageView
  | value => Value
  | validation => Unit
  | record _ => Record

/-- The reader. -/
def run : (k : Reading) → Reader k.Result
  | extent => readExtent
  | builtin b => b.read
  | struct => readStruct
  | listTable => readListTable
  | messageTable => readMessageTable
  | list => readList
  | message => readMessage
  | value => Value.read
  | validation => fun t => do
    let n ← validate t
    return ((), n)
  | record ty => ty.read

/-- What it makes of a payload. -/
def maker : (k : Reading) → Maker k.Result
  | extent => .extent
  | builtin b => .builtin b
  | struct => .struct
  | listTable => Maker.list.map ListView.table
  | messageTable => Maker.message.map MessageView.table
  | list => .list
  | message => .message
  | value => .value
  | validation => .validation maxDepth
  | record ty => .record ty

/-- **Every reader takes off one payload** and makes something of it. -/
theorem run_eq (k : Reading) (t : Tail) : k.run t = k.maker.read t := by
  cases k with
  | extent => exact readExtent_eq t
  | builtin b => exact b.read_eq t
  | struct => exact readStruct_eq t
  | listTable => exact readListTable_eq t
  | messageTable => exact readMessageTable_eq t
  | list => exact readList_eq t
  | message => exact readMessage_eq t
  | value => exact Value.read_eq t
  | validation =>
    change (do let n ← validateWithin (maxDepth + 1) t; return ((), n)) = _
    rw [validateWithin_succ_eq]
    simp only [bind_assoc, pure_bind]
    exact bind_pure _
  | record ty => exact ty.read_eq t

end Reading

end Backwire.Wire
