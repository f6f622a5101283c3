import Backwire.Wire.Value
import Backwire.Proofs.Wire.Form

/-!
# Values of a builtin type and their written forms

`d.Form e` says that the bytes `e` write the value `d` under the tag of its own type. A reader that
meets the tag of its own type accepts exactly these forms (`Builtin.read_eq_ok_iff`).
-/

namespace Backwire.Wire

open Tail

theorem Tag.toByte_injective {a b : Tag} (h : a.toByte = b.toByte) : a = b := by
  have := congrArg Tag.ofByte? h
  simpa using this

@[simp] theorem readTag_cons (tag : Tag) (t : Tail) : readTag (tag.toByte :: t) = .ok tag := by
  simp [readTag]

/-- **The written forms of a value**: its payload and its tag. The numeral in a form need not be the
shortest. -/
def Datum.Form : Datum → List UInt8 → Prop
  | bool v, e => e = [(Datum.bool v).tag.toByte]
  | byte v, e => e = [v] ++ [Tag.byte.toByte]
  | int16 v, e => NumberForm .int16 (Varint.zigzag v.toInt) e
  | int32 v, e => NumberForm .int32 (Varint.zigzag v.toInt) e
  | int64 v, e => NumberForm .int64 (Varint.zigzag v.toInt) e
  | uint16 v, e => NumberForm .uint16 v.toNat e
  | uint32 v, e => NumberForm .uint32 v.toNat e
  | uint64 v, e => NumberForm .uint64 v.toNat e
  | bin64 v, e => e = v.bytes ++ [Tag.bin64.toByte]
  | bin128 v, e => e = v.bytes ++ [Tag.bin128.toByte]
  | bin256 v, e => e = v.bytes ++ [Tag.bin256.toByte]
  | float32 v, e => e = Word.toBytes 4 v.bits.toNat ++ [Tag.float32.toByte]
  | float64 v, e => e = Word.toBytes 8 v.bits.toNat ++ [Tag.float64.toByte]
  | bytes v, e => RegionForm .bytes v e
  | string v, e => TextForm v e

/-- A form ends in the tag of the value. -/
theorem Datum.Form.last {d : Datum} {e : List UInt8} (h : d.Form e) :
    ∃ p, e = p ++ [d.tag.toByte] := by
  cases d with
  | bool v => exact ⟨[], h⟩
  | byte _ | bin64 _ | bin128 _ | bin256 _ | float32 _ | float64 _ => exact ⟨_, h⟩
  | int16 _ | int32 _ | int64 _ | uint16 _ | uint32 _ | uint64 _ =>
    obtain ⟨g, rfl, -⟩ := h
    exact ⟨g, rfl⟩
  | bytes _ | string _ =>
    obtain ⟨g, rfl, -⟩ := h
    exact ⟨_, rfl⟩

/-! ### Readers that meet their own tag -/

/-- A reader of raw values that satisfy `P`, as a reader of the values they stand for. -/
theorem read_iso_eq_ok_iff {α β : Type} {t : Tail} {r : Reader α} {F : α → List UInt8 → Prop}
    {P : α → Prop} {f : α → β} {g : β → α}
    (hread : ∀ a n, r t = .ok (a, n) ↔ t.EndsIn n (F a) ∧ P a) (hP : ∀ b, P (g b))
    (hfg : ∀ b, f (g b) = b) (hgf : ∀ a, P a → g (f a) = a) {b : β} {n : Nat} :
    (do let (a, n) ← r t; return (f a, n)) = .ok (b, n) ↔ t.EndsIn n (F (g b)) := by
  simp only [bind_eq_ok_iff, Prod.exists, pure_eq_ok_iff, Prod.mk.injEq, hread]
  constructor
  · rintro ⟨a, _, ⟨h, ha⟩, rfl, rfl⟩
    rwa [hgf a ha]
  · intro h
    exact ⟨g b, n, ⟨h, hP b⟩, hfg b, rfl⟩

/-- A number of 64 bits in front of its tag. -/
theorem endsIn_number {tag : Tag} {t : Tail} {v n : Nat} :
    (∃ m, n = m + 1 ∧ Varint.read64 t = .ok (v, m)) ↔
      EndsIn (tag.toByte :: t) n (NumberForm tag v) ∧ v < 0x10000000000000000 := by
  unfold NumberForm
  simp only [endsIn_concat, true_and, read64_eq_ok_iff, endsIn_and_length (P := (· ≤ 10))]
  constructor
  · rintro ⟨m, rfl, h, hm, hv⟩
    exact ⟨⟨m, rfl, h, hm⟩, hv⟩
  · rintro ⟨⟨m, rfl, h, hm⟩, hv⟩
    exact ⟨m, rfl, h, hm, hv⟩

theorem readUnsigned_eq_ok_iff {tag : Tag} (htag : tag.isUnsigned = true) {t : Tail} {v n : Nat} :
    readUnsigned (tag.toByte :: t) = .ok (v, n) ↔
      EndsIn (tag.toByte :: t) n (NumberForm tag v) ∧ v < 0x10000000000000000 := by
  have h1 : tag ≠ .undefined := by rintro rfl; cases htag
  have h2 : tag ≠ .byte := by rintro rfl; cases htag
  rw [← endsIn_number]
  simp only [readUnsigned, bind_eq_ok_iff, readTag_cons, Except.ok.injEq, exists_eq_left',
    if_neg h1, if_neg h2, htag, ↓reduceIte, List.tail_cons, Prod.exists, pure_eq_ok_iff, Prod.mk.injEq]
  constructor
  · rintro ⟨_, m, h, rfl, rfl⟩
    exact ⟨m, rfl, h⟩
  · rintro ⟨m, rfl, h⟩
    exact ⟨v, m, h, rfl, rfl⟩

/-- Folding keeps the range: an integer from `-limit` up to `limit` becomes a number below twice
that. -/
theorem zigzag_lt_iff (limit : Nat) {v : Int} :
    Varint.zigzag v < 2 * limit ↔ -limit ≤ v ∧ v < limit := by
  cases v with
  | ofNat k => rw [Int.ofNat_eq_natCast, show Varint.zigzag k = 2 * k from rfl]; omega
  | negSucc k => simp only [Varint.zigzag]; omega

theorem readSigned_eq_ok_iff {tag : Tag} (htag : tag.isSigned = true) {t : Tail} {v : Int}
    {n : Nat} :
    readSigned (tag.toByte :: t) = .ok (v, n) ↔
      EndsIn (tag.toByte :: t) n (NumberForm tag (Varint.zigzag v)) ∧
        -0x8000000000000000 ≤ v ∧ v < 0x8000000000000000 := by
  have hrange : Varint.zigzag v < 0x10000000000000000 ↔
      -0x8000000000000000 ≤ v ∧ v < 0x8000000000000000 := zigzag_lt_iff 0x8000000000000000
  rw [← hrange]
  have h1 : tag ≠ .undefined := by rintro rfl; cases htag
  rw [← endsIn_number]
  simp only [readSigned, bind_eq_ok_iff, readTag_cons, Except.ok.injEq, exists_eq_left', if_neg h1,
    htag, ↓reduceIte, List.tail_cons, Prod.exists, pure_eq_ok_iff, Prod.mk.injEq]
  constructor
  · rintro ⟨_, m, h, rfl, rfl⟩
    unfold Varint.readSigned64 at h
    split at h
    · cases h
    · rename_i w k hread
      cases h
      exact ⟨_, rfl, by rw [hread, Varint.zigzag_unzigzag]⟩
  · rintro ⟨m, rfl, h⟩
    exact ⟨v, m, by simp [Varint.readSigned64, h], rfl, rfl⟩

theorem readUnsignedBelow_eq_ok_iff {tag : Tag} (htag : tag.isUnsigned = true) {limit : Nat}
    (hlimit : limit ≤ 0x10000000000000000) {t : Tail} {v n : Nat} :
    readUnsignedBelow limit (tag.toByte :: t) = .ok (v, n) ↔
      EndsIn (tag.toByte :: t) n (NumberForm tag v) ∧ v < limit := by
  simp only [readUnsignedBelow, bind_eq_ok_iff, Prod.exists, readUnsigned_eq_ok_iff htag]
  constructor
  · rintro ⟨w, m, ⟨h, -⟩, hw⟩
    split at hw
    · cases hw
      exact ⟨h, ‹_›⟩
    · cases hw
  · rintro ⟨h, hv⟩
    exact ⟨v, n, ⟨h, by omega⟩, by rw [if_pos hv]; rfl⟩

theorem readSignedBelow_eq_ok_iff (limit : Nat) {tag : Tag} (htag : tag.isSigned = true)
    (hlimit : limit ≤ 0x8000000000000000) {t : Tail} {v : Int} {n : Nat} :
    readSignedBelow limit (tag.toByte :: t) = .ok (v, n) ↔
      EndsIn (tag.toByte :: t) n (NumberForm tag (Varint.zigzag v)) ∧ -limit ≤ v ∧ v < limit := by
  simp only [readSignedBelow, bind_eq_ok_iff, Prod.exists, readSigned_eq_ok_iff htag]
  constructor
  · rintro ⟨w, m, ⟨h, -⟩, hw⟩
    split at hw
    · cases hw
      exact ⟨h, ‹_›⟩
    · cases hw
  · rintro ⟨h, hv⟩
    exact ⟨v, n, ⟨h, by omega⟩, by rw [if_pos hv]; rfl⟩

theorem readUint16_eq_ok_iff {t : Tail} {v : UInt16} {n : Nat} :
    readUint16 (Tag.uint16.toByte :: t) = .ok (v, n) ↔
      EndsIn (Tag.uint16.toByte :: t) n (NumberForm .uint16 v.toNat) :=
  read_iso_eq_ok_iff (fun _ _ => readUnsignedBelow_eq_ok_iff rfl (by decide)) UInt16.toNat_lt
    (fun _ => by simp) fun m hm => by simpa using hm

theorem readUint32_eq_ok_iff {t : Tail} {v : UInt32} {n : Nat} :
    readUint32 (Tag.uint32.toByte :: t) = .ok (v, n) ↔
      EndsIn (Tag.uint32.toByte :: t) n (NumberForm .uint32 v.toNat) :=
  read_iso_eq_ok_iff (fun _ _ => readUnsignedBelow_eq_ok_iff rfl (by decide)) UInt32.toNat_lt
    (fun _ => by simp) fun m hm => by simpa using hm

theorem readUint64_eq_ok_iff {t : Tail} {v : UInt64} {n : Nat} :
    readUint64 (Tag.uint64.toByte :: t) = .ok (v, n) ↔
      EndsIn (Tag.uint64.toByte :: t) n (NumberForm .uint64 v.toNat) :=
  read_iso_eq_ok_iff (fun _ _ => readUnsigned_eq_ok_iff rfl) UInt64.toNat_lt
    (fun _ => by simp) fun m hm => by simpa using hm

theorem readInt16_eq_ok_iff {t : Tail} {v : Int16} {n : Nat} :
    readInt16 (Tag.int16.toByte :: t) = .ok (v, n) ↔
      EndsIn (Tag.int16.toByte :: t) n (NumberForm .int16 (Varint.zigzag v.toInt)) :=
  read_iso_eq_ok_iff (fun _ _ => readSignedBelow_eq_ok_iff 0x8000 rfl (by decide))
    (fun v => ⟨v.le_toInt, v.toInt_lt⟩) (fun _ => by simp)
    fun m hm => Int16.toInt_ofInt_of_le hm.1 hm.2

theorem readInt32_eq_ok_iff {t : Tail} {v : Int32} {n : Nat} :
    readInt32 (Tag.int32.toByte :: t) = .ok (v, n) ↔
      EndsIn (Tag.int32.toByte :: t) n (NumberForm .int32 (Varint.zigzag v.toInt)) :=
  read_iso_eq_ok_iff (fun _ _ => readSignedBelow_eq_ok_iff 0x80000000 rfl (by decide))
    (fun v => ⟨v.le_toInt, v.toInt_lt⟩) (fun _ => by simp)
    fun m hm => Int32.toInt_ofInt_of_le hm.1 hm.2

theorem readInt64_eq_ok_iff {t : Tail} {v : Int64} {n : Nat} :
    readInt64 (Tag.int64.toByte :: t) = .ok (v, n) ↔
      EndsIn (Tag.int64.toByte :: t) n (NumberForm .int64 (Varint.zigzag v.toInt)) :=
  read_iso_eq_ok_iff (fun _ _ => readSigned_eq_ok_iff rfl) (fun v => ⟨v.le_toInt, v.toInt_lt⟩)
    (fun _ => by simp) fun m hm => Int64.toInt_ofInt_of_le hm.1 hm.2

/-! ### Values of fixed width -/

/-- A reader of `width` bytes in front of a tag, as a reader of the values they stand for. -/
theorem readFixed_iso_eq_ok_iff {α : Type} {width n : Nat} {b : UInt8} {t : Tail} {f : Tail → α}
    {g : α → List UInt8} (hwidth : ∀ a, (g a).length = width) (hfg : ∀ a, f (ofBytes (g a)) = a)
    (hgf : ∀ p : Tail, p.length = width → g (f p) = toBytes p) {a : α} :
    (do let (p, n) ← readFixed width (b :: t); return (f p, n)) = .ok (a, n) ↔
      EndsIn (b :: t) n (· = g a ++ [b]) := by
  have h := read_iso_eq_ok_iff (t := b :: t) (r := readFixed width) (f := f) (n := n) (b := a)
    (g := fun a => ofBytes (g a)) (F := fun p e => e = toBytes p ++ [b])
    (P := fun p => p.length = width) (fun p n => by rw [readFixed_eq_ok_iff, and_comm])
    (fun a => by simp [hwidth]) hfg fun p hp => by rw [hgf p hp, ofBytes_toBytes]
  simpa using h

theorem readByte_eq_ok_iff {t : Tail} {v : UInt8} {n : Nat} :
    readByte (Tag.byte.toByte :: t) = .ok (v, n) ↔
      EndsIn (Tag.byte.toByte :: t) n (· = [v] ++ [Tag.byte.toByte]) := by
  rw [← readFixed_iso_eq_ok_iff (f := fun p => (Word.ofTail p).toUInt8) (g := fun v => [v])
    (fun _ => rfl) (fun v => by simp [Word.ofTail]) fun p hp => ?_]
  · have hunsigned : readUnsigned (Tag.byte.toByte :: t) =
        (do let (p, n) ← readFixed 1 (Tag.byte.toByte :: t); return (Word.ofTail p, n)) := by
      simp [readUnsigned]
    have hfits : ∀ p m, readFixed 1 (Tag.byte.toByte :: t) = .ok (p, m) → Word.ofTail p < 0x100 :=
      fun p m h => by
        have := Word.ofTail_lt p
        rwa [(readFixed_eq_ok_iff.1 h).1] at this
    simp only [readByte, readTag_cons, ok_bind, reduceCtorEq, false_or, true_or, ↓reduceIte,
      readUnsignedBelow, hunsigned, bind_eq_ok_iff, Prod.exists, pure_eq_ok_iff, Prod.mk.injEq]
    constructor
    · rintro ⟨_, _, ⟨_, _, ⟨p, m, h, rfl, rfl⟩, hw⟩, rfl, rfl⟩
      rw [if_pos (hfits p m h)] at hw
      cases hw
      exact ⟨p, _, h, rfl, rfl⟩
    · rintro ⟨p, m, h, rfl, rfl⟩
      exact ⟨_, _, ⟨_, _, ⟨p, m, h, rfl, rfl⟩, if_pos (hfits p m h)⟩, rfl, rfl⟩
  · obtain ⟨b, rfl⟩ := List.length_eq_one_iff.1 hp
    simp [Word.ofTail, toBytes]

theorem readBin_eq_ok_iff {size n : Nat} {tag : Tag} (htag : tag ≠ .undefined) {expected : Expected}
    {t : Tail} {v : Bin size} :
    readBin size tag expected (tag.toByte :: t) = .ok (v, n) ↔
      EndsIn (tag.toByte :: t) n (· = v.bytes ++ [tag.toByte]) := by
  rw [← readFixed_iso_eq_ok_iff (f := fun p => Bin.ofNat size (Word.ofTail p))
    (fun v => v.length_bytes) Bin.ofNat_toNat fun p hp => ?_]
  · simp only [readBin, readTag_cons, ok_bind, if_neg htag, if_pos]
  · subst hp
    simp [Bin.ofNat, Word.toBytes, Word.toTail_ofTail, toBytes]

/-- The bytes of a word read back. -/
theorem toBytes_ofTail {width : Nat} {p : Tail} (hp : p.length = width) :
    Word.toBytes width (Word.ofTail p) = toBytes p := by
  subst hp
  rw [Word.toBytes, Word.toTail_ofTail, toBytes]

theorem readFloat32_eq_ok_iff {t : Tail} {v : Binary32} {n : Nat} :
    readFloat32 (Tag.float32.toByte :: t) = .ok (v, n) ↔
      EndsIn (Tag.float32.toByte :: t) n
        (· = Word.toBytes 4 v.bits.toNat ++ [Tag.float32.toByte]) := by
  rw [← readFixed_iso_eq_ok_iff (f := fun p => (⟨(Word.ofTail p).toUInt32⟩ : Binary32))
    (fun v => Word.length_toBytes 4 v.bits.toNat) (fun v => ?_) fun p hp => ?_]
  · simp only [readFloat32, readTag_cons, ok_bind]
  · have : Word.ofTail (ofBytes (Word.toBytes 4 v.bits.toNat)) = v.bits.toNat :=
      Word.ofBytes_toBytes v.bits.toNat_lt
    simp [this]
  · have hlt : Word.ofTail p < 0x100000000 := by
      have := Word.ofTail_lt p
      rwa [hp] at this
    rw [Nat.toUInt32, UInt32.toNat_ofNat', Nat.mod_eq_of_lt hlt, toBytes_ofTail hp]

theorem readFloat64_eq_ok_iff {t : Tail} {v : Binary64} {n : Nat} :
    readFloat64 (Tag.float64.toByte :: t) = .ok (v, n) ↔
      EndsIn (Tag.float64.toByte :: t) n
        (· = Word.toBytes 8 v.bits.toNat ++ [Tag.float64.toByte]) := by
  rw [← readFixed_iso_eq_ok_iff (f := fun p => (⟨(Word.ofTail p).toUInt64⟩ : Binary64))
    (fun v => Word.length_toBytes 8 v.bits.toNat) (fun v => ?_) fun p hp => ?_]
  · simp only [readFloat64, readTag_cons, ok_bind]
  · have : Word.ofTail (ofBytes (Word.toBytes 8 v.bits.toNat)) = v.bits.toNat :=
      Word.ofBytes_toBytes v.bits.toNat_lt
    simp [this]
  · have hlt : Word.ofTail p < 0x10000000000000000 := by
      have := Word.ofTail_lt p
      rwa [hp] at this
    rw [Nat.toUInt64, UInt64.toNat_ofNat', Nat.mod_eq_of_lt hlt, toBytes_ofTail hp]

/-! ### Values without a payload, and of any size -/

theorem readBool_eq_ok_iff {t : Tail} {w v : Bool} {n : Nat} :
    readBool ((Datum.bool w).tag.toByte :: t) = .ok (v, n) ↔
      EndsIn ((Datum.bool w).tag.toByte :: t) n (Datum.bool v).Form := by
  have hform : (Datum.bool v).Form =
      fun e => ∃ p, e = p ++ [(Datum.bool v).tag.toByte] ∧ p = [] := by
    funext e
    simp [Datum.Form]
  have hread : readBool ((Datum.bool w).tag.toByte :: t) = .ok (w, 1) := by
    cases w <;> simp [readBool, Datum.tag] <;> rfl
  rw [hform, Tail.endsIn_concat, hread]
  constructor
  · rintro h
    cases h
    exact ⟨rfl, 0, rfl, [], t, rfl, rfl, rfl⟩
  · rintro ⟨hw, _, rfl, _, _, rfl, rfl, rfl⟩
    cases w <;> cases v <;> first | rfl | cases hw

theorem readBytes_eq_ok_iff {t : Tail} {v : List UInt8} {n : Nat} :
    readBytes (Tag.bytes.toByte :: t) = .ok (v, n) ↔
      EndsIn (Tag.bytes.toByte :: t) n (RegionForm .bytes v) := by
  simp only [readBytes, readTag_cons, ok_bind, bind_eq_ok_iff, Prod.exists, pure_eq_ok_iff,
    Prod.mk.injEq, readRegion_eq_ok_iff]
  constructor
  · rintro ⟨d, _, h, rfl, rfl⟩
    exact h
  · intro h
    exact ⟨ofBytes v, n, by rwa [toBytes_ofBytes], toBytes_ofBytes v, rfl⟩

/-! ### Builtin types -/

/-- The builtin type whose values are written under a tag. -/
def Tag.builtin? : Tag → Option Builtin
  | boolTrue | boolFalse => some .bool
  | byte => some .byte
  | int16 => some .int16
  | int32 => some .int32
  | int64 => some .int64
  | uint16 => some .uint16
  | uint32 => some .uint32
  | uint64 => some .uint64
  | bin64 => some .bin64
  | bin128 => some .bin128
  | bin256 => some .bin256
  | float32 => some .float32
  | float64 => some .float64
  | bytes => some .bytes
  | string => some .string
  | undefined | list | bigList | message | bigMessage | struct => none

@[simp] theorem Datum.builtin?_tag (d : Datum) : d.tag.builtin? = some d.builtin := by
  cases d with
  | bool v => cases v <;> rfl
  | _ => rfl

/-- A string that ends in a form ends in its tag. -/
theorem Datum.tag_of_endsIn {d : Datum} {tag : Tag} {t : Tail} {n : Nat}
    (h : EndsIn (tag.toByte :: t) n d.Form) : d.tag = tag := by
  obtain ⟨e, rest, ht, -, he⟩ := h
  obtain ⟨p, rfl⟩ := he.last
  rw [ofBytes_concat, List.cons_append, List.cons.injEq] at ht
  exact Tag.toByte_injective ht.1.symm

/-- A reader of one builtin type, as a reader of values of any. -/
theorem read_make_eq_ok_iff {α : Type} {read : Reader α} {make : α → Datum} {tag : Tag} {t : Tail}
    (hread : ∀ v n, read (tag.toByte :: t) = .ok (v, n) ↔ EndsIn (tag.toByte :: t) n (make v).Form)
    (hmake : ∀ d : Datum, some d.builtin = tag.builtin? → ∃ v, make v = d) {d : Datum} {n : Nat} :
    (do let (v, n) ← read (tag.toByte :: t); return (make v, n)) = .ok (d, n) ↔
      EndsIn (tag.toByte :: t) n d.Form := by
  simp only [bind_eq_ok_iff, Prod.exists, pure_eq_ok_iff, Prod.mk.injEq]
  constructor
  · rintro ⟨v, _, h, rfl, rfl⟩
    exact (hread v _).1 h
  · intro h
    obtain ⟨v, rfl⟩ := hmake d (by rw [← Datum.tag_of_endsIn h, Datum.builtin?_tag])
    exact ⟨v, n, (hread v n).2 h, rfl, rfl⟩

/-- **A reader that meets the tag of its type** accepts the forms of a value as that value, and
nothing else. -/
theorem Builtin.read_eq_ok_iff {b : Builtin} {tag : Tag} (hb : tag.builtin? = some b) {t : Tail}
    {d : Datum} {n : Nat} :
    b.read (tag.toByte :: t) = .ok (d, n) ↔ EndsIn (tag.toByte :: t) n d.Form := by
  cases tag <;> cases hb
  case boolTrue =>
    refine read_make_eq_ok_iff (fun v n => readBool_eq_ok_iff (w := true)) fun d hd => ?_
    cases d with | bool v => exact ⟨v, rfl⟩ | _ => cases hd
  case boolFalse =>
    refine read_make_eq_ok_iff (fun v n => readBool_eq_ok_iff (w := false)) fun d hd => ?_
    cases d with | bool v => exact ⟨v, rfl⟩ | _ => cases hd
  case byte =>
    refine read_make_eq_ok_iff (fun v n => readByte_eq_ok_iff) fun d hd => ?_
    cases d with | byte v => exact ⟨v, rfl⟩ | _ => cases hd
  case int16 =>
    refine read_make_eq_ok_iff (fun v n => readInt16_eq_ok_iff) fun d hd => ?_
    cases d with | int16 v => exact ⟨v, rfl⟩ | _ => cases hd
  case int32 =>
    refine read_make_eq_ok_iff (fun v n => readInt32_eq_ok_iff) fun d hd => ?_
    cases d with | int32 v => exact ⟨v, rfl⟩ | _ => cases hd
  case int64 =>
    refine read_make_eq_ok_iff (fun v n => readInt64_eq_ok_iff) fun d hd => ?_
    cases d with | int64 v => exact ⟨v, rfl⟩ | _ => cases hd
  case uint16 =>
    refine read_make_eq_ok_iff (fun v n => readUint16_eq_ok_iff) fun d hd => ?_
    cases d with | uint16 v => exact ⟨v, rfl⟩ | _ => cases hd
  case uint32 =>
    refine read_make_eq_ok_iff (fun v n => readUint32_eq_ok_iff) fun d hd => ?_
    cases d with | uint32 v => exact ⟨v, rfl⟩ | _ => cases hd
  case uint64 =>
    refine read_make_eq_ok_iff (fun v n => readUint64_eq_ok_iff) fun d hd => ?_
    cases d with | uint64 v => exact ⟨v, rfl⟩ | _ => cases hd
  case bin64 =>
    refine read_make_eq_ok_iff (fun v n => readBin_eq_ok_iff (by decide)) fun d hd => ?_
    cases d with | bin64 v => exact ⟨v, rfl⟩ | _ => cases hd
  case bin128 =>
    refine read_make_eq_ok_iff (fun v n => readBin_eq_ok_iff (by decide)) fun d hd => ?_
    cases d with | bin128 v => exact ⟨v, rfl⟩ | _ => cases hd
  case bin256 =>
    refine read_make_eq_ok_iff (fun v n => readBin_eq_ok_iff (by decide)) fun d hd => ?_
    cases d with | bin256 v => exact ⟨v, rfl⟩ | _ => cases hd
  case float32 =>
    refine read_make_eq_ok_iff (fun v n => readFloat32_eq_ok_iff) fun d hd => ?_
    cases d with | float32 v => exact ⟨v, rfl⟩ | _ => cases hd
  case float64 =>
    refine read_make_eq_ok_iff (fun v n => readFloat64_eq_ok_iff) fun d hd => ?_
    cases d with | float64 v => exact ⟨v, rfl⟩ | _ => cases hd
  case bytes =>
    refine read_make_eq_ok_iff (fun v n => readBytes_eq_ok_iff) fun d hd => ?_
    cases d with | bytes v => exact ⟨v, rfl⟩ | _ => cases hd
  case string =>
    refine read_make_eq_ok_iff (fun v n => readString_eq_ok_iff) fun d hd => ?_
    cases d with | string v => exact ⟨v, rfl⟩ | _ => cases hd

/-- A form in front of which anything may stand reads back as its value. -/
theorem Datum.Form.read {d : Datum} {e : List UInt8} (h : d.Form e) (rest : Tail) :
    d.builtin.read (ofBytes e ++ rest) = .ok (d, e.length) := by
  have hends := EndsIn.intro rest h
  obtain ⟨p, rfl⟩ := h.last
  rw [ofBytes_concat, List.cons_append] at hends ⊢
  exact (Builtin.read_eq_ok_iff d.builtin?_tag).2 hends

end Backwire.Wire
