import Backwire.Proofs.Wire.Atomicity

/-!
# Integers at another width

An integer can be read at a width other than the one it was written at. What is stored is one
integer for all signed types together, and one for all unsigned types (`Sign.read`); a type takes it
if it lies in its range, and says so if it does not (`Builtin.read_of_stored`). So readers of one
sign never disagree about the integer or its size, and every question about two widths is a question
about one range.

A reader of the other sign refuses the tag, whatever is stored under it.
-/

namespace Backwire.Wire

open Tail

variable {t : Tail} {tag : Tag} {b b' : Builtin} {d d' : Datum} {v : Int} {n n' : Nat}
  {e : WireError}

/-! ### Types of integers -/

/-- Whether there are negative integers in a type. -/
inductive Sign where
  | signed
  | unsigned
  deriving DecidableEq, Repr

namespace Builtin

/-- The sign of a type of integers. -/
def sign? : Builtin → Option Sign
  | int16 | int32 | int64 => some .signed
  | byte | uint16 | uint32 | uint64 => some .unsigned
  | _ => none

/-- The range of a type of integers: its least one, and the first one beyond its greatest. -/
def range : Builtin → Int × Int
  | byte => (0, 0x100)
  | int16 => (-0x8000, 0x8000)
  | int32 => (-0x80000000, 0x80000000)
  | int64 => (-0x8000000000000000, 0x8000000000000000)
  | uint16 => (0, 0x10000)
  | uint32 => (0, 0x100000000)
  | uint64 => (0, 0x10000000000000000)
  | _ => (0, 0)

/-- An integer is in the range of a type. -/
def Holds (b : Builtin) (v : Int) : Prop := b.range.1 ≤ v ∧ v < b.range.2

instance (b : Builtin) (v : Int) : Decidable (b.Holds v) :=
  inferInstanceAs (Decidable (b.range.1 ≤ v ∧ v < b.range.2))

/-- What a reader of integers asks for. A reader of bytes does not name the other widths that it
takes. -/
def expected : Builtin → Expected
  | int16 | int32 | int64 => .signed
  | uint16 | uint32 | uint64 => .unsigned
  | _ => .byte

end Builtin

/-- The integer that a value stands for. -/
def Datum.integer? : Datum → Option Int
  | byte v => some v.toNat
  | int16 v => some v.toInt
  | int32 v => some v.toInt
  | int64 v => some v.toInt
  | uint16 v => some v.toNat
  | uint32 v => some v.toNat
  | uint64 v => some v.toNat
  | _ => none

/-! ### What is stored -/

/-- **The integer that is stored**, for all widths of a sign. -/
def Sign.read : Sign → Reader Int
  | signed => readSigned
  | unsigned => fun t => do
    let (v, n) ← readUnsigned t
    return ((v : Int), n)

theorem Sign.read_unsigned_eq_ok_iff :
    Sign.unsigned.read t = .ok (v, n) ↔ ∃ w : Nat, readUnsigned t = .ok (w, n) ∧ v = w := by
  simp only [read, bind_eq_ok_iff, Prod.exists, pure_eq_ok_iff, Prod.mk.injEq]
  constructor
  · rintro ⟨w, _, h, rfl, rfl⟩
    exact ⟨w, h, rfl⟩
  · rintro ⟨w, h, rfl⟩
    exact ⟨w, n, h, rfl, rfl⟩

theorem readNumber_lt {w : Nat} (h : readNumber t = .ok (w, n)) : w < 0x10000000000000000 := by
  obtain ⟨⟨w, m⟩, hread, h⟩ := bind_eq_ok_iff.1 h
  cases h
  exact (read64_eq_ok_iff.1 hread).2.2

/-- A stored integer has no more than 64 bits. -/
theorem holds_of_readSigned (h : readSigned t = .ok (v, n)) : Builtin.int64.Holds v := by
  rw [readSigned_eq] at h
  obtain ⟨tag, f, p, -, hf, hp, hv⟩ := Maker.read_eq_ok_iff.1 h
  cases tag <;> cases hf <;> cases hv
  case undefined => exact ⟨by decide, by decide⟩
  all_goals
    have hlt := readNumber_lt hp
    rw [← Varint.zigzag_unzigzag p] at hlt
    exact (zigzag_lt_iff 0x8000000000000000).1 hlt

theorem lt_of_readUnsigned {w : Nat} (h : readUnsigned t = .ok (w, n)) :
    w < 0x10000000000000000 := by
  rw [readUnsigned_eq] at h
  obtain ⟨tag, f, p, -, hf, hp, hv⟩ := Maker.read_eq_ok_iff.1 h
  cases tag <;> cases hf <;> cases hv
  case undefined => decide
  case byte => exact Nat.lt_trans (ofTail_lt_of_readFixed hp) (by decide)
  all_goals exact readNumber_lt hp

/-! ### What a type makes of it -/

/-- **The type takes the integer `v`** off a string if it is in its range, and fails if not. -/
structure Builtin.Takes (b : Builtin) (t : Tail) (v : Int) (n : Nat) : Prop where
  ok : b.Holds v → ∃ d, b.read t = .ok (d, n) ∧ d.builtin = b ∧ d.integer? = some v
  overflow : ¬b.Holds v → b.read t = .error .overflow

/-- A reader that checks the range. -/
theorem Builtin.Takes.of_ite {P : Prop} [Decidable P]
    (hread : b.read t = if P then .ok (d, n) else .error .overflow) (hP : b.Holds v ↔ P)
    (hd : P → d.builtin = b ∧ d.integer? = some v) : b.Takes t v n := by
  refine ⟨fun h => ?_, fun h => ?_⟩
  · rw [hread, if_pos (hP.1 h)]
    exact ⟨d, rfl, hd (hP.1 h)⟩
  · rw [hread, if_neg (mt hP.2 h)]

theorem readSignedBelow_of_stored (limit : Int) (h : readSigned t = .ok (v, n)) :
    readSignedBelow limit t = if -limit ≤ v ∧ v < limit then .ok (v, n) else .error .overflow := by
  rw [readSignedBelow, h]
  rfl

theorem readUnsignedBelow_of_stored (limit : Nat) {w : Nat} (h : readUnsigned t = .ok (w, n)) :
    readUnsignedBelow limit t = if w < limit then .ok (w, n) else .error .overflow := by
  rw [readUnsignedBelow, h]
  rfl

/-- Where an unsigned integer is stored, a byte asks for no other tags. -/
theorem readByte_of_stored {w : Nat} (h : readUnsigned t = .ok (w, n)) :
    readByte t = if w < 0x100 then .ok (w.toUInt8, n) else .error .overflow := by
  rw [readUnsigned_eq] at h
  obtain ⟨tag, f, p, htag, hf, hp, hv⟩ := Maker.read_eq_ok_iff.1 h
  rw [← readUnsigned_eq] at h
  have hwanted : tag = .undefined ∨ tag = .byte ∨ tag.isUnsigned = true := by
    cases tag <;> cases hf <;> decide
  rw [readByte, htag, ok_bind, if_pos hwanted, readUnsignedBelow_of_stored _ h]
  split <;> rfl

/-- **A reader takes what is stored**, if it is in the range of its type. -/
theorem Builtin.read_of_stored {σ : Sign} (hb : b.sign? = some σ) (h : σ.read t = .ok (v, n)) :
    b.Takes t v n := by
  cases σ with
  | signed =>
    have hstored : readSigned t = .ok (v, n) := h
    cases b <;> cases hb
    case signed.int16.refl =>
      refine .of_ite (P := -0x8000 ≤ v ∧ v < 0x8000) (d := .int16 (Int16.ofInt v)) ?_ Iff.rfl
        fun hv => ⟨rfl, congrArg some (Int16.toInt_ofInt_of_le hv.1 hv.2)⟩
      simp only [Builtin.read, readInt16, readSignedBelow_of_stored _ hstored]
      split <;> rfl
    case signed.int32.refl =>
      refine .of_ite (P := -0x80000000 ≤ v ∧ v < 0x80000000) (d := .int32 (Int32.ofInt v)) ?_
        Iff.rfl fun hv => ⟨rfl, congrArg some (Int32.toInt_ofInt_of_le hv.1 hv.2)⟩
      simp only [Builtin.read, readInt32, readSignedBelow_of_stored _ hstored]
      split <;> rfl
    case signed.int64.refl =>
      have hv := holds_of_readSigned hstored
      refine .of_ite (P := True) (d := .int64 (Int64.ofInt v)) ?_ (iff_true_intro hv) fun _ =>
        ⟨rfl, congrArg some (Int64.toInt_ofInt_of_le hv.1 hv.2)⟩
      simp only [Builtin.read, readInt64, hstored]
      rfl
  | unsigned =>
    obtain ⟨w, hstored, rfl⟩ := Sign.read_unsigned_eq_ok_iff.1 h
    have hholds (limit : Nat) : (0 ≤ (w : Int) ∧ (w : Int) < limit) ↔ w < limit := by omega
    cases b <;> cases hb
    case unsigned.byte.refl =>
      refine .of_ite (d := .byte w.toUInt8) ?_ (hholds 0x100) fun hw => ⟨rfl, ?_⟩
      · simp only [Builtin.read, readByte_of_stored hstored]
        split <;> rfl
      · simp [Datum.integer?, Nat.mod_eq_of_lt hw]
    case unsigned.uint16.refl =>
      refine .of_ite (d := .uint16 w.toUInt16) ?_ (hholds 0x10000) fun hw => ⟨rfl, ?_⟩
      · simp only [Builtin.read, readUint16, readUnsignedBelow_of_stored _ hstored]
        split <;> rfl
      · simp [Datum.integer?, Nat.mod_eq_of_lt hw]
    case unsigned.uint32.refl =>
      refine .of_ite (d := .uint32 w.toUInt32) ?_ (hholds 0x100000000) fun hw => ⟨rfl, ?_⟩
      · simp only [Builtin.read, readUint32, readUnsignedBelow_of_stored _ hstored]
        split <;> rfl
      · simp [Datum.integer?, Nat.mod_eq_of_lt hw]
    case unsigned.uint64.refl =>
      have hw := lt_of_readUnsigned hstored
      refine .of_ite (P := True) (d := .uint64 w.toUInt64) ?_
        (iff_true_intro ((hholds 0x10000000000000000).2 hw)) fun _ => ⟨rfl, ?_⟩
      · simp only [Builtin.read, readUint64, hstored]
        rfl
      · simp [Datum.integer?, Nat.mod_eq_of_lt hw]

/-- What a reader reads is stored. -/
theorem Sign.read_of_read {σ : Sign} (hb : b.sign? = some σ) (h : b.read t = .ok (d, n)) :
    ∃ v, σ.read t = .ok (v, n) := by
  rw [Builtin.read_eq] at h
  obtain ⟨tag, f, p, htag, hf, hp, -⟩ := Maker.read_eq_ok_iff.1 h
  cases σ with
  | signed =>
    have hstored : ∃ g v, Maker.signed tag = .ok g ∧ g p = .ok v := by
      cases b <;> cases hb <;> cases tag <;> cases hf <;> exact ⟨_, _, rfl, rfl⟩
    obtain ⟨g, v, hg, hv⟩ := hstored
    exact ⟨v, (readSigned_eq t).trans (Maker.read_eq_ok_iff.2 ⟨tag, g, p, htag, hg, hp, hv⟩)⟩
  | unsigned =>
    have hstored : ∃ g w, Maker.unsigned tag = .ok g ∧ g p = .ok w := by
      cases b <;> cases hb <;> cases tag <;> cases hf <;> exact ⟨_, _, rfl, rfl⟩
    obtain ⟨g, w, hg, hw⟩ := hstored
    exact ⟨w, Sign.read_unsigned_eq_ok_iff.2 ⟨w, (readUnsigned_eq t).trans
      (Maker.read_eq_ok_iff.2 ⟨tag, g, p, htag, hg, hp, hw⟩), rfl⟩⟩

/-- **What a reader reads is the integer that is stored**, whatever its width. -/
theorem Builtin.stored_of_read {σ : Sign} (hb : b.sign? = some σ) (h : b.read t = .ok (d, n)) :
    ∃ v, σ.read t = .ok (v, n) ∧ d.integer? = some v := by
  obtain ⟨v, hv⟩ := Sign.read_of_read hb h
  have htakes := Builtin.read_of_stored hb hv
  by_cases hholds : b.Holds v
  · obtain ⟨d', hd, -, hint⟩ := htakes.ok hholds
    cases h.symm.trans hd
    exact ⟨v, hv, hint⟩
  · cases h.symm.trans (htakes.overflow hholds)

/-! ### The other sign -/

/-- A reader of the other sign refuses the tag, whatever stands in front of it. -/
theorem Builtin.read_of_other_sign {σ τ : Sign} {c : Builtin} (htag : readTag t = .ok tag)
    (hc : tag.builtin? = some c) (hσ : c.sign? = some σ) (hb : b.sign? = some τ) (hne : τ ≠ σ) :
    b.read t = .error (.invalidType b.expected tag) := by
  rw [Builtin.read_eq, Maker.read_of_readTag _ htag]
  cases tag <;> cases hc <;> cases hσ <;> cases b <;> cases hb <;>
    first | rfl | exact absurd rfl hne

/-! ### Both together -/

theorem Builtin.isFixedSize_of_sign {σ : Sign} (hb : b.sign? = some σ) : b.isFixedSize = true := by
  cases b <;> first | rfl | cases hb

/-- **Integers convert between the widths of one sign exactly when they fit.**

* What is written as one width is read as another of the same sign, with the size that writing
  returned, if it is in the range of the other one, and fails with an overflow if not. As a width of
  the other sign it is refused, with the tag it was written with.
* This tag is refused by all readers of the other sign, whatever stands in front of it.
* In any string, two readers of one sign that succeed find the same integer, and use as many
  bytes. -/
theorem integers_convert (σ : Sign) :
    (∀ (d : Datum) v buf, d.builtin.sign? = some σ → d.integer? = some v →
      ∃ n buf', d.write buf = .ok n buf' ∧ readTag buf'.tail = .ok d.tag ∧
        (∀ b : Builtin, b.sign? = some σ → b.Takes buf'.tail v n) ∧
        ∀ (b : Builtin) τ, b.sign? = some τ → τ ≠ σ →
          b.read buf'.tail = .error (.invalidType b.expected d.tag)) ∧
    (∀ t tag (c : Builtin), readTag t = .ok tag → tag.builtin? = some c → c.sign? = some σ →
      ∀ (b : Builtin) τ, b.sign? = some τ → τ ≠ σ →
        b.read t = .error (.invalidType b.expected tag)) ∧
    ∀ t (b b' : Builtin) d d' n n', b.sign? = some σ → b'.sign? = some σ →
      b.read t = .ok (d, n) → b'.read t = .ok (d', n') →
        n = n' ∧ ∃ v, d.integer? = some v ∧ d'.integer? = some v := by
  refine ⟨fun d v buf hσ hv => ?_, fun t tag c htag hc hσ b τ hb hne =>
    Builtin.read_of_other_sign htag hc hσ hb hne, fun t b b' d d' n n' hb hb' h h' => ?_⟩
  · obtain ⟨n, buf', hwrite⟩ := d.exists_write (Builtin.isFixedSize_of_sign hσ) buf
    obtain ⟨hwrote, hread⟩ := Datum.wrote_of_write hwrite
    have htag : readTag buf'.tail = .ok d.tag := (readExtent_eq_ok_iff.1 hwrote.extent).1
    obtain ⟨w, hstored, hw⟩ := Builtin.stored_of_read hσ hread
    cases hw.symm.trans hv
    exact ⟨n, buf', hwrite, htag, fun b hb => Builtin.read_of_stored hb hstored, fun b τ hb hne =>
      Builtin.read_of_other_sign htag d.builtin?_tag hσ hb hne⟩
  · obtain ⟨v, hv, hd⟩ := Builtin.stored_of_read hb h
    obtain ⟨v', hv', hd'⟩ := Builtin.stored_of_read hb' h'
    cases hv.symm.trans hv'
    exact ⟨rfl, v, hd, hd'⟩

/-- An integer just below the least one of 16 bits, behind a byte of something else; and a string
that no writer makes, in which 70000 is stored as an integer of 16 bits. -/
theorem integers_convert_beyond :
    (∃ n buf, (Datum.int64 (-32769)).write (.ofBytes [7]) = .ok n buf ∧
      Builtin.int16.read buf.tail = .error .overflow ∧
      (∃ d, Builtin.int32.read buf.tail = .ok (d, n) ∧ d.integer? = some (-32769)) ∧
      Builtin.byte.read buf.tail = .error (.invalidType .byte .int64)) ∧
    Builtin.byte.read (ofBytes [8, 0xc5, 0xe0, 10]) = .error (.invalidType .byte .int16) ∧
    Builtin.int16.read (ofBytes [8, 0xc5, 0xe0, 10]) = .error .overflow ∧
    ∃ d d' n, Builtin.int32.read (ofBytes [8, 0xc5, 0xe0, 10]) = .ok (d, n) ∧
      Builtin.int64.read (ofBytes [8, 0xc5, 0xe0, 10]) = .ok (d', n) ∧
      d.integer? = some 70000 ∧ d'.integer? = some 70000 := by
  obtain ⟨hwritten, hother, hsame⟩ := integers_convert .signed
  refine ⟨?_, hother (ofBytes [8, 0xc5, 0xe0, 10]) .int16 .int16 rfl rfl rfl .byte .unsigned rfl
    (by decide), by rfl, ?_⟩
  · obtain ⟨n, buf, hok, -, htakes, hrefused⟩ := hwritten (.int64 (-32769)) (-32769) (.ofBytes [7])
      rfl (by decide)
    obtain ⟨d, hd, -, hint⟩ := (htakes .int32 rfl).ok (by decide)
    exact ⟨n, buf, hok, (htakes .int16 rfl).overflow (by decide), ⟨d, hd, hint⟩,
      hrefused .byte .unsigned rfl (by decide)⟩
  · have h32 : Builtin.int32.read (ofBytes [8, 0xc5, 0xe0, 10]) = .ok (.int32 70000, 4) := by rfl
    have h64 : Builtin.int64.read (ofBytes [8, 0xc5, 0xe0, 10]) = .ok (.int64 70000, 4) := by rfl
    have hstored : (Datum.int32 70000).integer? = some 70000 := by decide
    obtain ⟨-, v, hv, hv'⟩ := hsame _ .int32 .int64 _ _ _ _ rfl rfl h32 h64
    cases hv.symm.trans hstored
    exact ⟨_, _, _, h32, h64, hv, hv'⟩

end Backwire.Wire
