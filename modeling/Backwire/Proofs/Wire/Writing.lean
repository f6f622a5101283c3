import Backwire.Proofs.Wire.Datum

/-!
# What writers add to a buffer

A writer that succeeds adds one form of the value behind what was there and returns its size; a
writer that refuses the value leaves the buffer as it was. `Appends` says both.
-/

namespace Backwire.Wire

open Tail

@[simp] theorem Buffer.tail_push (buf : Buffer) (b : UInt8) : (buf.push b).tail = b :: buf.tail :=
  rfl

@[simp] theorem Buffer.tail_write (buf : Buffer) (bytes : List UInt8) :
    (buf.write bytes).tail = Tail.ofBytes bytes ++ buf.tail := rfl

@[simp] theorem Buffer.tail_writeVarint (buf : Buffer) (v : Nat) :
    (buf.writeVarint v).tail = Varint.encode v ++ buf.tail := rfl

theorem Buffer.tail_eq_of_bytes {buf buf' : Buffer} {e : List UInt8}
    (h : buf'.bytes = buf.bytes ++ e) : buf'.tail = Tail.ofBytes e ++ buf.tail := by
  rw [← ofBytes_toBytes buf'.tail, ← ofBytes_toBytes buf.tail, ← ofBytes_append]
  exact congrArg _ h

/-- **The writer adds a string that is as `F` says, or nothing.** -/
def Appends (w : Writer Nat) (F : List UInt8 → Prop) : Prop :=
  ∀ buf : Buffer,
    (∃ e, F e ∧ w buf = .ok e.length ⟨ofBytes e ++ buf.tail⟩) ∨ ∃ err, w buf = .error err buf

namespace Appends

variable {w : Writer Nat} {F : List UInt8 → Prop} {buf buf' : Buffer}

theorem ok (hw : Appends w F) {n : Nat} (h : w buf = .ok n buf') :
    ∃ e, F e ∧ e.length = n ∧ buf' = ⟨ofBytes e ++ buf.tail⟩ := by
  rcases hw buf with ⟨e, he, hw⟩ | ⟨err, hw⟩
  · rw [hw] at h
    cases h
    exact ⟨e, he, rfl, rfl⟩
  · rw [hw] at h
    cases h

theorem error (hw : Appends w F) {err : WireError} (h : w buf = .error err buf') : buf' = buf := by
  rcases hw buf with ⟨e, he, hw⟩ | ⟨err, hw⟩
  · rw [hw] at h
    cases h
  · rw [hw] at h
    cases h
    rfl

end Appends

/-! ### Sizes -/

theorem regionSize_eq_ok_iff {size reported n : Nat} :
    regionSize size reported = .ok n ↔ n = size ∧ size ≤ maxSize := by
  rw [regionSize, ite_eq_ok_iff]

/-- A region is refused with the size that is reported for it. -/
theorem regionSize_eq_error_iff {size reported : Nat} {e : WireError} :
    regionSize size reported = .error e ↔ .sizeExceeded reported = e ∧ ¬size ≤ maxSize := by
  rw [regionSize, ite_eq_error_iff]

theorem bytesExtent_eq_ok_iff {n total : Nat} :
    bytesExtent n = .ok total ↔ total = n + Varint.width n + 1 ∧ total ≤ maxSize := by
  simp only [bytesExtent, totalSize, bind_eq_ok_iff, regionSize_eq_ok_iff, Wire.total]
  constructor
  · rintro ⟨_, ⟨rfl, -⟩, rfl, h⟩
    omega
  · rintro ⟨rfl, h⟩
    exact ⟨n, ⟨rfl, by omega⟩, by omega, by omega⟩

theorem stringExtent_eq_ok_iff {n total : Nat} :
    stringExtent n = .ok total ↔ total = n + 1 + Varint.width n + 1 ∧ total ≤ maxSize := by
  simp only [stringExtent, totalSize, bind_eq_ok_iff, regionSize_eq_ok_iff, Wire.total]
  constructor
  · rintro ⟨_, ⟨rfl, -⟩, rfl, h⟩
    omega
  · rintro ⟨rfl, h⟩
    exact ⟨n, ⟨rfl, by omega⟩, by omega, by omega⟩

theorem tableTrailer_eq_ok_iff {data table n : Nat} :
    tableTrailer data table = .ok n ↔
      n = table + Varint.width data + Varint.width table + 1 ∧ data + n ≤ maxSize := by
  simp only [tableTrailer, totalSize, bind_eq_ok_iff, regionSize_eq_ok_iff, Wire.total,
    pure_eq_ok_iff]
  constructor
  · rintro ⟨_, ⟨rfl, -⟩, _, ⟨rfl, -⟩, _, ⟨rfl, -⟩, _, ⟨-, h⟩, rfl⟩
    omega
  · rintro ⟨rfl, h⟩
    exact ⟨data, ⟨rfl, by omega⟩, table, ⟨rfl, by omega⟩, _, ⟨rfl, by omega⟩, _, ⟨rfl, by omega⟩,
      by omega⟩

/-- A size that is not too large is written as a size. -/
theorem sizeForm_encode {n : Nat} (h : n ≤ maxSize) : SizeForm (toBytes (Varint.encode n)) n := by
  refine ⟨numeral_encode n, ?_⟩
  rw [length_toBytes, Varint.length_encode]
  unfold maxSize at h
  exact width_le (by decide) (by omega)

/-! ### Scalars -/

theorem appends_writeFixed (payload : List UInt8) (tag : Tag) :
    Appends (writeFixed payload tag) (· = payload ++ [tag.toByte]) := fun buf => by
  refine .inl ⟨_, rfl, ?_⟩
  rw [ofBytes_concat, List.length_append]
  rfl

theorem appends_writeUnsigned {v : Nat} (hv : v < 0x10000000000000000) (tag : Tag) :
    Appends (writeUnsigned v tag) (NumberForm tag v) := fun buf => by
  refine .inl ⟨toBytes (Varint.encode v) ++ [tag.toByte], ⟨_, rfl, numeral_encode v, ?_⟩, ?_⟩
  · rw [length_toBytes, Varint.length_encode]
    exact width_le (by decide) (by omega)
  · rw [ofBytes_concat, List.length_append, length_toBytes, Varint.length_encode, ofBytes_toBytes]
    rfl

theorem appends_writeSigned {v : Int} (hv : -0x8000000000000000 ≤ v ∧ v < 0x8000000000000000)
    (tag : Tag) : Appends (writeSigned v tag) (NumberForm tag (Varint.zigzag v)) :=
  appends_writeUnsigned ((zigzag_lt_iff 0x8000000000000000).2 hv) tag

/-! ### Values of any size -/

/-- What a calculation of a size decides: whether to write, or to leave the buffer alone. -/
theorem appends_ofExcept {size : Except WireError Nat} {f : Buffer → Buffer} {F : List UInt8 → Prop}
    (h : ∀ n, size = .ok n →
      ∃ e, F e ∧ e.length = n ∧ ∀ buf, (f buf).tail = ofBytes e ++ buf.tail) :
    Appends (do let n ← Writer.ofExcept size; modify f; return n) F := fun buf => by
  cases size with
  | error err => exact .inr ⟨err, rfl⟩
  | ok n =>
    obtain ⟨e, he, rfl, hf⟩ := h n rfl
    refine .inl ⟨e, he, ?_⟩
    rw [← hf]
    rfl

theorem appends_writeBytes (v : List UInt8) : Appends (writeBytes v) (RegionForm .bytes v) := by
  refine appends_ofExcept fun n hn => ?_
  obtain ⟨rfl, hmax⟩ := bytesExtent_eq_ok_iff.1 hn
  have hlen : (v ++ toBytes (Varint.encode v.length) ++ [Tag.bytes.toByte]).length =
      v.length + Varint.width v.length + 1 := by simp; omega
  exact ⟨_, ⟨_, rfl, sizeForm_encode (by omega), hlen ▸ hmax⟩, hlen, fun buf => by
    simp [ofBytes_append]⟩

theorem appends_writeString (s : String) : Appends (writeString s) (TextForm s) := by
  refine appends_ofExcept fun n hn => ?_
  change stringExtent (utf8 s).length = .ok n at hn
  obtain ⟨rfl, hmax⟩ := stringExtent_eq_ok_iff.1 hn
  have hlen : (utf8 s ++ [0] ++ toBytes (Varint.encode (utf8 s).length) ++
      [Tag.string.toByte]).length = (utf8 s).length + 1 + Varint.width (utf8 s).length + 1 := by
    simp; omega
  refine ⟨_, ⟨_, rfl, sizeForm_encode (by omega), hlen ▸ hmax⟩, hlen, fun buf => ?_⟩
  change (((((buf.write (utf8 s)).push 0).writeVarint (utf8 s).length)).push _).tail = _
  simp [ofBytes_append, ofBytes_cons]

/-- Closing data that was written before: its table, the two sizes and the tag. -/
theorem appends_writeTable (data table : List UInt8) (tag : Tag) :
    Appends (writeTable data.length table tag)
      fun trailer => Sealed tag data table (data ++ trailer) := by
  refine appends_ofExcept fun n hn => ?_
  obtain ⟨rfl, hmax⟩ := tableTrailer_eq_ok_iff.1 hn
  have hlen : (table ++ toBytes (Varint.encode data.length) ++
      toBytes (Varint.encode table.length) ++ [tag.toByte]).length =
        table.length + Varint.width data.length + Varint.width table.length + 1 := by
    simp; omega
  refine ⟨_, ⟨_, _, ?_, sizeForm_encode (by omega), sizeForm_encode (by omega), ?_⟩, hlen,
    fun buf => ?_⟩
  · simp only [List.append_assoc]
  · rw [List.length_append, hlen]
    exact hmax
  · simp [ofBytes_append]

/-- **Writing a value of a builtin type** adds one of its forms, or nothing. -/
theorem Datum.appends (d : Datum) : Appends d.write d.Form := by
  cases d with
  | bool v =>
    cases v
    · exact appends_writeFixed [] .boolFalse
    · exact appends_writeFixed [] .boolTrue
  | byte v => exact appends_writeFixed [v] .byte
  | int16 v =>
    have := v.le_toInt
    have := v.toInt_lt
    exact appends_writeSigned (by omega) .int16
  | int32 v =>
    have := v.le_toInt
    have := v.toInt_lt
    exact appends_writeSigned (by omega) .int32
  | int64 v =>
    have := v.le_toInt
    have := v.toInt_lt
    exact appends_writeSigned (by omega) .int64
  | uint16 v => exact appends_writeUnsigned (by have := v.toNat_lt; omega) .uint16
  | uint32 v => exact appends_writeUnsigned (by have := v.toNat_lt; omega) .uint32
  | uint64 v => exact appends_writeUnsigned v.toNat_lt .uint64
  | bin64 v => exact appends_writeFixed v.bytes .bin64
  | bin128 v => exact appends_writeFixed v.bytes .bin128
  | bin256 v => exact appends_writeFixed v.bytes .bin256
  | float32 v => exact appends_writeFixed (Word.toBytes 4 v.bits.toNat) .float32
  | float64 v => exact appends_writeFixed (Word.toBytes 8 v.bits.toNat) .float64
  | bytes v => exact appends_writeBytes v
  | string s => exact appends_writeString s

end Backwire.Wire
