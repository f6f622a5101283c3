import Backwire.Sample.Scene
import Backwire.Proofs.Wire.Contents

/-!
# Structs are read back

The bytes of a struct do not tell where one field ends and the next one begins. They are read all
the same, because each reader takes exactly what was written for its field: `r.BodyForm body` says
that the bytes are the forms of the fields one after another, and reading from the end takes them
off in the opposite order, whatever stands in front (`Record.BodyForm.readFields`).

A struct is refused only for its size. `Record.size` calculates it from the values, and
`Record.weighs` says that it decides: the writer adds that many bytes, or they are more than a value
may have. Both are inductions on the struct, with one case for each kind of field.
-/

namespace Backwire.Wire

open Tail

/-! ### Writers of a known size -/

section Steps

variable {α β : Type} {w : Writer α} {f : α → Writer β} {buf buf' : Buffer}

theorem Writer.bind_of_ok {a : α} (h : w buf = .ok a buf') : (w >>= f) buf = f a buf' := by
  change EStateM.bind w f buf = _
  rw [EStateM.bind, h]

theorem Writer.bind_of_error {e : WireError} (h : w buf = .error e buf') :
    (w >>= f) buf = .error e buf' := by
  change EStateM.bind w f buf = _
  rw [EStateM.bind, h]

theorem Buffer.write_write (buf : Buffer) (a b : List UInt8) :
    (buf.write a).write b = buf.write (a ++ b) := by
  simp [write]

end Steps

/-- **The writer adds `size` bytes that are as `F` says**, or these are more than a value may have
and it says so. -/
def Weighs (w : Writer Nat) (size : Nat) (F : List UInt8 → Prop) : Prop :=
  ∀ buf : Buffer,
    (size ≤ maxSize ∧ ∃ e, F e ∧ e.length = size ∧ w buf = .ok size (buf.write e)) ∨
      maxSize < size ∧ ∃ reported buf', w buf = .error (.sizeExceeded reported) buf'

/-- The calculation fails only for a size that is too large. -/
def OnlyTooLarge {α : Type} (x : Except WireError α) : Prop :=
  ∀ e, x = .error e → ∃ n, e = .sizeExceeded n

namespace OnlyTooLarge

variable {α β : Type}

theorem pure (a : α) : OnlyTooLarge (Pure.pure a) := nofun

theorem bind {x : Except WireError α} {f : α → Except WireError β} (hx : OnlyTooLarge x)
    (hf : ∀ a, OnlyTooLarge (f a)) : OnlyTooLarge (x >>= f) := fun e he => by
  rcases bind_eq_error_iff.1 he with he | ⟨a, -, he⟩
  · exact hx e he
  · exact hf a e he

theorem regionSize (size reported : Nat) : OnlyTooLarge (regionSize size reported) :=
  fun _ he => ⟨reported, (regionSize_eq_error_iff.1 he).1.symm⟩

theorem bytesExtent (n : Nat) : OnlyTooLarge (bytesExtent n) :=
  (regionSize _ _).bind fun _ => regionSize _ _

theorem stringExtent (n : Nat) : OnlyTooLarge (stringExtent n) :=
  (regionSize _ _).bind fun _ => regionSize _ _

theorem structTrailer (n : Nat) : OnlyTooLarge (structTrailer n) :=
  (regionSize _ _).bind fun _ => (regionSize _ _).bind fun _ => .pure _

end OnlyTooLarge

section Weighs

variable {w : Writer Nat} {size : Nat} {F : List UInt8 → Prop}

/-- What is always written. -/
theorem Appends.weighs (h : Appends w F) (hsize : size ≤ maxSize)
    (hok : ∀ buf, ∃ buf', w buf = .ok size buf') : Weighs w size F := fun buf => by
  obtain ⟨buf', hrun⟩ := hok buf
  obtain ⟨e, he, hlen, rfl⟩ := h.ok hrun
  exact .inl ⟨hsize, e, he, hlen, hrun⟩

/-- What is written if the size that is calculated first is not too large. -/
theorem Appends.weighs_ofExcept {extent : Except WireError Nat} {f : Buffer → Buffer}
    (h : Appends (do let n ← Writer.ofExcept extent; modify f; return n) F)
    (hextent : ∀ n, extent = .ok n ↔ n = size ∧ n ≤ maxSize) (hlarge : OnlyTooLarge extent) :
    Weighs (do let n ← Writer.ofExcept extent; modify f; return n) size F := fun buf => by
  cases hrun : extent with
  | ok n =>
    obtain ⟨rfl, hle⟩ := (hextent n).1 hrun
    subst hrun
    obtain ⟨e, he, hlen, hbuf⟩ := @Appends.ok _ _ buf _ h n rfl
    exact .inl ⟨hle, e, he, hlen, congrArg (EStateM.Result.ok n) hbuf⟩
  | error e =>
    obtain ⟨reported, rfl⟩ := hlarge e hrun
    refine .inr ⟨Nat.lt_of_not_le fun hle => ?_, reported, buf, rfl⟩
    cases hrun.symm.trans ((hextent size).2 ⟨rfl, hle⟩)

end Weighs

/-! ### Values of a builtin type -/

/-- How many bytes a value takes. -/
def Datum.size : Datum → Nat
  | bool _ => 1
  | byte _ => 2
  | int16 v => Varint.width (Varint.zigzag v.toInt) + 1
  | int32 v => Varint.width (Varint.zigzag v.toInt) + 1
  | int64 v => Varint.width (Varint.zigzag v.toInt) + 1
  | uint16 v => Varint.width v.toNat + 1
  | uint32 v => Varint.width v.toNat + 1
  | uint64 v => Varint.width v.toNat + 1
  | bin64 _ => 9
  | bin128 _ => 17
  | bin256 _ => 33
  | float32 _ => 5
  | float64 _ => 9
  | bytes v => v.length + Varint.width v.length + 1
  | string s => (utf8 s).length + 1 + Varint.width (utf8 s).length + 1

/-- A number under a tag takes at most ten groups. -/
theorem width_succ_le_maxSize {v : Nat} (h : v < 0x10000000000000000) :
    Varint.width v + 1 ≤ maxSize := by
  have : Varint.width v ≤ 10 := width_le (by decide) (by omega)
  unfold maxSize
  omega

theorem weighs_writeUnsigned {v : Nat} (hv : v < 0x10000000000000000) (tag : Tag) :
    Weighs (writeUnsigned v tag) (Varint.width v + 1) (NumberForm tag v) :=
  (appends_writeUnsigned hv tag).weighs (width_succ_le_maxSize hv) fun _ => ⟨_, rfl⟩

theorem weighs_writeSigned {v : Int} (hv : -0x8000000000000000 ≤ v ∧ v < 0x8000000000000000)
    (tag : Tag) :
    Weighs (writeSigned v tag) (Varint.width (Varint.zigzag v) + 1)
      (NumberForm tag (Varint.zigzag v)) :=
  weighs_writeUnsigned ((zigzag_lt_iff 0x8000000000000000).2 hv) tag

theorem weighs_writeFixed {payload : List UInt8} {width : Nat} (hwidth : payload.length = width)
    (hle : width ≤ 32) (tag : Tag) :
    Weighs (writeFixed payload tag) (width + 1) (· = payload ++ [tag.toByte]) :=
  (appends_writeFixed payload tag).weighs (by unfold maxSize; omega)
    fun _ => ⟨_, by rw [← hwidth]; rfl⟩

/-- **A value of a builtin type** is written if it is not too large. -/
theorem Datum.weighs (d : Datum) : Weighs d.write d.size d.Form := by
  cases d with
  | bool v =>
    cases v
    · exact weighs_writeFixed rfl (by decide) .boolFalse
    · exact weighs_writeFixed rfl (by decide) .boolTrue
  | byte v => exact @weighs_writeFixed [v] 1 rfl (by decide) .byte
  | int16 v =>
    have := v.le_toInt
    have := v.toInt_lt
    exact weighs_writeSigned (by omega) .int16
  | int32 v =>
    have := v.le_toInt
    have := v.toInt_lt
    exact weighs_writeSigned (by omega) .int32
  | int64 v =>
    have := v.le_toInt
    have := v.toInt_lt
    exact weighs_writeSigned (by omega) .int64
  | uint16 v => exact weighs_writeUnsigned (by have := v.toNat_lt; omega) .uint16
  | uint32 v => exact weighs_writeUnsigned (by have := v.toNat_lt; omega) .uint32
  | uint64 v => exact weighs_writeUnsigned v.toNat_lt .uint64
  | bin64 v => exact weighs_writeFixed v.length_bytes (by decide) .bin64
  | bin128 v => exact weighs_writeFixed v.length_bytes (by decide) .bin128
  | bin256 v => exact weighs_writeFixed v.length_bytes (by decide) .bin256
  | float32 v => exact weighs_writeFixed (Word.length_toBytes 4 v.bits.toNat) (by decide) .float32
  | float64 v => exact weighs_writeFixed (Word.length_toBytes 8 v.bits.toNat) (by decide) .float64
  | bytes v =>
    exact (appends_writeBytes v).weighs_ofExcept (fun _ => bytesExtent_eq_ok_iff) (.bytesExtent _)
  | string s =>
    exact (appends_writeString s).weighs_ofExcept (fun _ => stringExtent_eq_ok_iff)
      (.stringExtent _)

/-! ### Forms -/

/-- **The bytes of the fields of a struct**: a form of each, one after another. A field that is a
struct again is a body closed by its size. -/
def Record.BodyForm : Record → List UInt8 → Prop
  | empty, body => body = []
  | datum d rest, body => ∃ e later, body = e ++ later ∧ d.Form e ∧ rest.BodyForm later
  | record inner rest, body =>
    ∃ e later, body = e ++ later ∧ (∃ b, inner.BodyForm b ∧ RegionForm .struct b e) ∧
      rest.BodyForm later

/-- The written forms of a struct. -/
def Record.Form (r : Record) (e : List UInt8) : Prop :=
  ∃ body, r.BodyForm body ∧ RegionForm .struct body e

/-- A body that is closed by its size is found. -/
theorem readStruct_of_form {body e : List UInt8} (h : RegionForm .struct body e) (front : Tail) :
    readStruct (ofBytes e ++ front) = .ok (ofBytes body, e.length) := by
  have hends : EndsIn (ofBytes e ++ front) e.length (RegionForm .struct (toBytes (ofBytes body))) :=
    .intro front (by rwa [toBytes_ofBytes])
  obtain ⟨g, rfl, -⟩ := h
  rw [ofBytes_concat, List.cons_append] at hends ⊢
  exact readStruct_eq_ok_iff.2 hends

/-- A struct is read if its fields are taken off the end of its body. -/
theorem readStructOf_of_form {α : Type} {fields : Tail → Except WireError (α × Tail)}
    {body e : List UInt8} {a : α} {left : Tail} (h : RegionForm .struct body e)
    (hfields : fields (ofBytes body) = .ok (a, left)) (front : Tail) :
    readStructOf fields (ofBytes e ++ front) = .ok (a, e.length) := by
  rw [readStructOf, readStruct_of_form h front, ok_bind]
  dsimp only
  rw [hfields]
  rfl

/-- **The fields are taken off the end of their bytes**, and what stands in front of them is
left. -/
theorem Record.BodyForm.readFields {r : Record} {body : List UInt8} (h : r.BodyForm body)
    (front : Tail) : r.type.readFields (ofBytes body ++ front) = .ok (r, front) := by
  induction r generalizing body front with
  | empty =>
    obtain rfl : body = [] := h
    rfl
  | datum d rest ih =>
    obtain ⟨e, later, rfl, he, hlater⟩ := h
    -- the later fields are taken first, and what they leave ends in this one
    rw [type, RecordType.readFields, ofBytes_append, List.append_assoc,
      ih hlater (ofBytes e ++ front), ok_bind]
    dsimp only
    rw [he.read front, ok_bind]
    dsimp only
    rw [List.drop_left' (length_ofBytes e)]
    rfl
  | record inner rest ihInner ih =>
    obtain ⟨e, later, rfl, ⟨b, hb, he⟩, hlater⟩ := h
    have hinner : inner.type.readFields (ofBytes b) = .ok (inner, []) := by
      have := ihInner hb []
      rwa [List.append_nil] at this
    rw [type, RecordType.readFields, ofBytes_append, List.append_assoc,
      ih hlater (ofBytes e ++ front), ok_bind]
    dsimp only
    rw [readStructOf_of_form he hinner front, ok_bind]
    dsimp only
    rw [List.drop_left' (length_ofBytes e)]
    rfl

/-- A form in front of which anything may stand reads back as its struct. -/
theorem Record.Form.read {r : Record} {e : List UInt8} (h : r.Form e) (front : Tail) :
    r.type.read (ofBytes e ++ front) = .ok (r, e.length) := by
  obtain ⟨body, hbody, hregion⟩ := h
  have hfields := hbody.readFields []
  rw [List.append_nil] at hfields
  exact readStructOf_of_form hregion hfields front

/-! ### Writing -/

/-- The size of a struct whose fields take `n` bytes. -/
def structSize (n : Nat) : Nat := n + Varint.width n + 1

/-- How many bytes the fields of a struct take. -/
def Record.bodySize : Record → Nat
  | empty => 0
  | datum d rest => d.size + rest.bodySize
  | record inner rest => structSize inner.bodySize + rest.bodySize

/-- **How many bytes a struct takes.** -/
def Record.size (r : Record) : Nat := structSize r.bodySize

theorem structTrailer_eq_ok_iff {n k : Nat} :
    structTrailer n = .ok k ↔ k = Varint.width n + 1 ∧ structSize n ≤ maxSize := by
  simp only [structTrailer, structSize, totalSize, bind_eq_ok_iff, regionSize_eq_ok_iff, Wire.total,
    pure_eq_ok_iff]
  constructor
  · rintro ⟨_, ⟨rfl, -⟩, _, ⟨-, h⟩, rfl⟩
    exact ⟨rfl, by omega⟩
  · rintro ⟨rfl, h⟩
    exact ⟨n, ⟨rfl, by omega⟩, _, ⟨rfl, by omega⟩, rfl⟩

/-- **Closing a body** adds its size and the tag, unless the struct is too large. -/
theorem writeStructTrailer_cases (body : List UInt8) (buf : Buffer) :
    (structSize body.length ≤ maxSize ∧ ∃ trailer,
      RegionForm .struct body (body ++ trailer) ∧
      (body ++ trailer).length = structSize body.length ∧
        writeStructTrailer body.length buf = .ok trailer.length (buf.write trailer)) ∨
    maxSize < structSize body.length ∧ ∃ reported,
      writeStructTrailer body.length buf = .error (.sizeExceeded reported) buf := by
  cases htrailer : structTrailer body.length with
  | error err =>
    obtain ⟨reported, rfl⟩ := OnlyTooLarge.structTrailer _ _ htrailer
    refine .inr ⟨Nat.lt_of_not_le fun hle => ?_, reported, ?_⟩
    · cases htrailer.symm.trans (structTrailer_eq_ok_iff.2 ⟨rfl, hle⟩)
    · rw [writeStructTrailer, htrailer]
      rfl
  | ok k =>
    obtain ⟨rfl, hle⟩ := structTrailer_eq_ok_iff.1 htrailer
    have hlen : (toBytes (Varint.encode body.length) ++ [Tag.struct.toByte]).length =
        Varint.width body.length + 1 := by simp
    have hall : (body ++ (toBytes (Varint.encode body.length) ++ [Tag.struct.toByte])).length =
        structSize body.length := by
      rw [List.length_append, hlen, structSize, Nat.add_assoc]
    refine .inl ⟨hle, _, ⟨_, (List.append_assoc _ _ _).symm, sizeForm_encode ?_, hall ▸ hle⟩, hall,
      ?_⟩
    · unfold structSize at hle
      omega
    · have hbuf : (buf.writeVarint body.length).push Tag.struct.toByte =
          buf.write (toBytes (Varint.encode body.length) ++ [Tag.struct.toByte]) := by
        simp [Buffer.write, Buffer.push, Buffer.writeVarint, toBytes]
      rw [writeStructTrailer, htrailer, hlen, ← hbuf]
      rfl

/-- **The writer of the fields adds `size` bytes that are as `F` says**, or stops at a field that is
too large, and then all of them are. -/
def FieldsWeigh (fields : Writer Unit) (size : Nat) (F : List UInt8 → Prop) : Prop :=
  ∀ buf : Buffer,
    (∃ body, F body ∧ body.length = size ∧ fields buf = .ok () (buf.write body)) ∨
      maxSize < size ∧ ∃ reported buf', fields buf = .error (.sizeExceeded reported) buf'

namespace FieldsWeigh

variable {fields : Writer Unit} {w : Writer Nat} {n size : Nat} {F G : List UInt8 → Prop}

/-- One more field in front. -/
theorem cons (hw : Weighs w n F) (h : FieldsWeigh fields size G) :
    FieldsWeigh (do let _ ← w; fields) (n + size)
      fun body => ∃ e later, body = e ++ later ∧ F e ∧ G later := fun buf => by
  rcases hw buf with ⟨-, e, he, hlen, hrun⟩ | ⟨hlarge, reported, buf', hrun⟩
  · rcases h (buf.write e) with ⟨later, hlater, hsize, hrest⟩ | ⟨hlarge, reported, buf', hrest⟩
    · refine .inl ⟨e ++ later, ⟨e, later, rfl, he, hlater⟩, by simp [hlen, hsize], ?_⟩
      rw [Writer.bind_of_ok hrun, hrest, Buffer.write_write]
    · refine .inr ⟨by omega, reported, buf', ?_⟩
      rw [Writer.bind_of_ok hrun, hrest]
  · exact .inr ⟨by omega, reported, buf', Writer.bind_of_error hrun⟩

/-- **Closing a struct**: behind the fields stand their size and the tag, unless all of it is too
large. -/
theorem close (h : FieldsWeigh fields size F) :
    Weighs (writeStruct fields) (structSize size)
      fun e => ∃ body, F body ∧ RegionForm .struct body e := fun buf => by
  have hrun : writeStruct fields buf = (do
      fields
      let n := (← get).size - buf.size
      return n + (← writeStructTrailer n) : Writer Nat) buf := rfl
  rcases h buf with ⟨body, hbody, rfl, hfields⟩ | ⟨hlarge, reported, buf', hfields⟩
  · have hsize : (buf.write body).size - buf.size = body.length := by
      rw [← Buffer.size_eq, ← Buffer.size_eq, Buffer.bytes_write, List.length_append,
        Nat.add_sub_cancel_left]
    have hclose : writeStruct fields buf = (do
        let k ← writeStructTrailer body.length
        return body.length + k : Writer Nat) (buf.write body) := by
      rw [hrun, Writer.bind_of_ok hfields, ← hsize]
      rfl
    rw [hclose]
    rcases writeStructTrailer_cases body (buf.write body) with
      ⟨hle, trailer, hform, hlen, hok⟩ | ⟨hlarge, reported, herr⟩
    · refine .inl ⟨hle, body ++ trailer, ⟨body, hbody, hform⟩, hlen, ?_⟩
      rw [Writer.bind_of_ok hok, Buffer.write_write, ← hlen, List.length_append]
      rfl
    · exact .inr ⟨hlarge, reported, _, Writer.bind_of_error herr⟩
  · rw [hrun]
    exact .inr ⟨by unfold structSize; omega, reported, buf', Writer.bind_of_error hfields⟩

end FieldsWeigh

/-- **The fields of a struct** are written one after another. -/
theorem Record.fieldsWeigh (r : Record) : FieldsWeigh r.writeFields r.bodySize r.BodyForm := by
  induction r with
  | empty => exact fun buf => .inl ⟨[], rfl, rfl, rfl⟩
  | datum d rest ih => exact ih.cons d.weighs
  | record inner rest ihInner ih => exact ih.cons ihInner.close

/-- **A struct is written if it is not too large.** -/
theorem Record.weighs (r : Record) : Weighs r.write r.size r.Form := r.fieldsWeigh.close

/-- **What is written of a struct is read back**, whatever was in the buffer before, and nothing but
its size can be wrong with a struct. -/
theorem Record.write_cases (r : Record) (buf : Buffer) :
    (r.size ≤ maxSize ∧ ∃ e, r.Form e ∧ e.length = r.size ∧
      r.write buf = .ok r.size (buf.write e) ∧
      r.type.read (buf.write e).tail = .ok (r, r.size)) ∨
    maxSize < r.size ∧ ∃ reported buf', r.write buf = .error (.sizeExceeded reported) buf' := by
  rcases r.weighs buf with ⟨hle, e, hform, hlen, hok⟩ | hlarge
  · exact .inl ⟨hle, e, hform, hlen, hok, hlen ▸ hform.read buf.tail⟩
  · exact .inr hlarge

end Backwire.Wire

/-! ### The structs of the sample schema -/

namespace Backwire.Sample

open Backwire.Wire

theorem Pair.size_le (p : Pair) : p.toRecord.size ≤ maxSize := by
  have hkey : Varint.width p.key.toNat ≤ 5 :=
    width_le (by decide) (Nat.lt_trans p.key.toNat_lt (by decide))
  have hvalue : Varint.width p.value.toNat ≤ 5 :=
    width_le (by decide) (Nat.lt_trans p.value.toNat_lt (by decide))
  have hbody : p.toRecord.bodySize ≤ 12 := by
    simp only [toRecord, Record.bodySize, Datum.size]
    omega
  have hwidth : Varint.width p.toRecord.bodySize = 1 := Varint.width_of_lt (by omega)
  unfold Record.size structSize maxSize
  omega

theorem Vec2.size_le (v : Vec2) : v.toRecord.size ≤ maxSize := by
  have hbody : v.toRecord.bodySize = 10 := rfl
  rw [Record.size, structSize, hbody, Varint.width_of_lt (by decide)]
  decide

/-- A form in front of which anything may stand reads back as its pair. -/
theorem Pair.read_of_form {p : Pair} {e : List UInt8} (h : p.toRecord.Form e) (front : Tail) :
    Pair.read (Tail.ofBytes e ++ front) = .ok (p, e.length) := by
  have hread := h.read front
  rw [Pair.type_toRecord] at hread
  rw [Pair.read, hread]
  rfl

/-- A form in front of which anything may stand reads back as its point. -/
theorem Vec2.read_of_form {v : Vec2} {e : List UInt8} (h : v.toRecord.Form e) (front : Tail) :
    Vec2.read (Tail.ofBytes e ++ front) = .ok (v, e.length) := by
  have hread := h.read front
  rw [Vec2.type_toRecord] at hread
  rw [Vec2.read, hread]
  rfl

end Backwire.Sample
