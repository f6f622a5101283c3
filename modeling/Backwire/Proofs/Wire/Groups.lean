import Backwire.Proofs.Wire.Canonical

/-!
# Varints byte by byte

What a varint is, without regard to how it is read or written: a byte below 128 and bytes of at
least 128 behind it, of which the low seven bits are digits in base 128, the last byte holding the
lowest (`Groups`). It is the same as a numeral (`groups_iff_numeral`), so the readers of both widths
take exactly these, and the writer makes the shortest.

Signed numbers are folded. `Varint.zigzag` says so of integers; in a word of a machine it takes a
shift and an exclusive or (`toNat_foldWord`, `toInt_unfoldWord`), whatever the width of the word.
-/

namespace Backwire.Wire

open Tail

variable {g : List UInt8} {v n : Nat} {t : Tail}

/-! ### Groups of seven bits -/

/-- **The bytes `g`, first byte first, are groups of the number `v`.** -/
structure Groups (g : List UInt8) (v : Nat) : Prop where
  /-- The first byte is not marked, and every other is. -/
  marked : ∃ top others, g = top :: others ∧ top.toNat < 128 ∧ ∀ b ∈ others, 128 ≤ b.toNat
  /-- From the last byte on, the low seven bits are digits in base 128. -/
  sum : v = Nat.ofDigits 128 (g.reverse.map fun b => b.toNat % 128)

theorem numeral_of_marked {top : UInt8} (htop : top.toNat < 128) {others : List UInt8}
    (h : ∀ b ∈ others, 128 ≤ b.toNat) :
    Numeral (top :: others)
      (Nat.ofDigits 128 ((top :: others).reverse.map fun b => b.toNat % 128)) := by
  induction others using List.reverseRecOn with
  | nil => simpa [Nat.mod_eq_of_lt htop] using Numeral.top htop
  | append_singleton others b ih =>
    rw [List.forall_mem_append] at h
    have hmore := (ih h.1).more (h.2 b (List.mem_singleton_self b))
    rw [← List.cons_append, List.reverse_append, List.map_append, List.reverse_singleton,
      List.map_singleton, List.singleton_append, Nat.ofDigits_cons]
    exact hmore

/-- **Groups are numerals**: what both say of a string is the same. -/
theorem groups_iff_numeral : Groups g v ↔ Numeral g v := by
  constructor
  · rintro ⟨⟨top, others, rfl, htop, h⟩, rfl⟩
    exact numeral_of_marked htop h
  · intro h
    induction h with
    | @top b hb => exact ⟨⟨b, [], rfl, hb, nofun⟩, by simp [Nat.mod_eq_of_lt hb]⟩
    | @more g w b _ hb ih =>
      obtain ⟨⟨top, others, rfl, htop, hothers⟩, hsum⟩ := ih
      refine ⟨⟨top, others ++ [b], rfl, htop, ?_⟩, ?_⟩
      · rw [List.forall_mem_append, List.forall_mem_singleton]
        exact ⟨hothers, hb⟩
      · rw [List.reverse_append, List.map_append, List.reverse_singleton, List.map_singleton,
          List.singleton_append, Nat.ofDigits_cons, ← hsum]

/-! ### Both widths -/

/-- A width of numbers that varints are read at. -/
inductive Width where
  | narrow
  | wide

namespace Width

/-- The bits of a number. -/
def bits : Width → Nat
  | narrow => 32
  | wide => 64

/-- The most groups that are read for it. -/
def limit : Width → Nat
  | narrow => 5
  | wide => 10

/-- The reader of a number. -/
def read : Width → Reader Nat
  | narrow => Varint.read32
  | wide => Varint.read64

/-- The reader of a signed number. -/
def readSigned : Width → Reader Int
  | narrow => Varint.readSigned32
  | wide => Varint.readSigned64

variable {w : Width}

theorem read_eq_ok_iff :
    w.read t = .ok (v, n) ↔ t.EndsIn n (Groups · v) ∧ n ≤ w.limit ∧ v < 2 ^ w.bits := by
  simp only [groups_iff_numeral]
  cases w with
  | narrow => exact read32_eq_ok_iff
  | wide => exact read64_eq_ok_iff

theorem readSigned_eq (t : Tail) :
    w.readSigned t = (w.read t).map fun p => (Varint.unzigzag p.1, p.2) := by
  cases w <;> simp only [readSigned, read, Varint.readSigned32, Varint.readSigned64] <;> split <;>
    simp_all [Except.map]

theorem bits_le_limit : 2 ^ w.bits ≤ 128 ^ w.limit := by cases w <;> decide

end Width

theorem Width.error_of_read {w : Width} {e : WireError} (h : w.read t = .error e) : e.Passing := by
  cases w with
  | narrow => exact read32_error h
  | wide => exact readGroups_error h

/-! ### The shortest groups -/

theorem head?_encode_ne_zero (hv : 0 < v) : (toBytes (Varint.encode v)).head? ≠ some 0 := by
  induction v using Nat.strongRecOn with
  | ind v ih =>
    rw [Varint.encode]
    split
    · next hlt =>
      intro hzero
      have hbyte : v.toUInt8.toNat = v := by simp; omega
      have hzero : v.toUInt8 = 0 := Option.some.inj hzero
      rw [hzero] at hbyte
      exact absurd hbyte.symm (by simpa using hv.ne')
    · have hrest := ih (v / 128) (by omega) (by omega)
      have hne : toBytes (Varint.encode (v / 128)) ≠ [] :=
        fun h => Varint.encode_ne_nil _ (List.reverse_eq_nil_iff.1 h)
      rwa [toBytes, List.reverse_cons, ← toBytes, List.head?_append_of_ne_nil _ hne]

theorem shortest_encode (v : Nat) : Shortest (toBytes (Varint.encode v)) := by
  rcases Nat.eq_zero_or_pos v with rfl | hv
  · exact .inl (by rw [length_toBytes, Varint.length_encode]; rfl)
  · exact .inr (head?_encode_ne_zero hv)

/-- **What is written is the one that is not too long.** -/
theorem Numeral.eq_encode_iff (h : Numeral g v) :
    g = toBytes (Varint.encode v) ↔ Shortest g :=
  ⟨fun hg => hg ▸ shortest_encode v, h.eq_encode⟩

/-- No numeral of a number is shorter than what is written. -/
theorem Numeral.width_le (h : Numeral g v) : Varint.width v ≤ g.length :=
  Wire.width_le h.length_pos h.lt_pow

/-! ### Words -/

section Words

variable {w : Nat}

/-- Folds in a word: its bits move up by one, and are flipped if the sign was set. -/
def foldWord (v : BitVec w) : BitVec w := (v <<< 1) ^^^ v.sshiftRight (w - 1)

/-- Unfolds in a word: its bits move down by one, and are flipped if the lowest was set. -/
def unfoldWord (v : BitVec w) : BitVec w := (v >>> 1) ^^^ -(v &&& 1#w)

/-- The sign, moved down to the lowest bit, fills the word. -/
theorem sshiftRight_sub_one (v : BitVec w) :
    v.sshiftRight (w - 1) = if v.msb then BitVec.allOnes w else 0#w := by
  refine BitVec.eq_of_getLsbD_eq fun i hi => ?_
  have hsign : (if w - 1 + i < w then v.getLsbD (w - 1 + i) else v.msb) = v.msb := by
    split
    · rw [show w - 1 + i = w - 1 by omega, BitVec.msb_eq_getLsbD_last]
    · rfl
  rw [BitVec.getLsbD_sshiftRight, hsign]
  cases v.msb <;> simp [hi]

/-- **Folding in a word is folding.** -/
theorem toNat_foldWord (hw : 0 < w) (v : BitVec w) :
    (foldWord v).toNat = Varint.zigzag v.toInt := by
  have hlt := v.isLt
  have hpow : 2 ^ w = 2 * 2 ^ (w - 1) := by
    rw [← Nat.pow_succ', Nat.succ_eq_add_one, Nat.sub_add_cancel hw]
  have hshift : (v <<< 1).toNat = 2 * v.toNat % 2 ^ w := by
    rw [BitVec.toNat_shiftLeft, Nat.shiftLeft_eq, Nat.pow_one, Nat.mul_comm]
  rw [foldWord, sshiftRight_sub_one, BitVec.toInt_eq_msb_cond]
  cases hsign : v.msb <;> rw [BitVec.msb_eq_decide] at hsign
  · have hlow : v.toNat < 2 ^ (w - 1) := by simpa using hsign
    simp only [Bool.false_eq_true, if_false, BitVec.xor_zero]
    rw [hshift, Nat.mod_eq_of_lt (by omega)]
    rfl
  · have hhigh : 2 ^ (w - 1) ≤ v.toNat := by simpa using hsign
    have hneg : (v.toNat : Int) - (2 ^ w : Nat) = .negSucc (2 ^ w - v.toNat - 1) := by omega
    simp only [if_true, BitVec.xor_allOnes]
    rw [BitVec.toNat_not, hshift, Nat.mod_eq_sub_mod (by omega), Nat.mod_eq_of_lt (by omega), hneg,
      Varint.zigzag]
    omega

/-- The lowest bit, taken from zero, fills the word. -/
theorem neg_and_one (hw : 0 < w) (v : BitVec w) :
    -(v &&& 1#w) = if v.toNat % 2 = 1 then BitVec.allOnes w else 0#w := by
  have hbit : v &&& 1#w = if v.toNat % 2 = 1 then 1#w else 0#w := by
    have hone : (1#w).toNat = 1 := by
      rw [BitVec.toNat_ofNat, Nat.mod_eq_of_lt (Nat.one_lt_two_pow hw.ne')]
    refine BitVec.eq_of_toNat_eq ?_
    rw [BitVec.toNat_and, hone, Nat.and_one_is_mod]
    split
    · next hodd => rw [hone, hodd]
    · rw [BitVec.toNat_zero]
      omega
  rw [hbit]
  split
  · exact BitVec.neg_one_eq_allOnes
  · exact BitVec.neg_zero w

/-- **Unfolding in a word is unfolding.** -/
theorem toInt_unfoldWord (hw : 0 < w) (v : BitVec w) :
    (unfoldWord v).toInt = Varint.unzigzag v.toNat := by
  have hlt := v.isLt
  have hpow : 2 ^ w = 2 * 2 ^ (w - 1) := by
    rw [← Nat.pow_succ', Nat.succ_eq_add_one, Nat.sub_add_cancel hw]
  have hshift : (v >>> 1).toNat = v.toNat / 2 := by
    rw [BitVec.toNat_ushiftRight, Nat.shiftRight_eq_div_pow, Nat.pow_one]
  rw [unfoldWord, neg_and_one hw, Varint.unzigzag]
  rcases Nat.mod_two_eq_zero_or_one v.toNat with heven | hodd
  · rw [if_neg (by omega), if_pos heven, BitVec.xor_zero, BitVec.toInt_eq_toNat_cond, hshift,
      if_pos (by omega)]
    rfl
  · rw [if_pos hodd, if_neg (by omega), BitVec.xor_allOnes, BitVec.toInt_eq_toNat_cond,
      BitVec.toNat_not, hshift, if_neg (by omega)]
    omega

theorem unfoldWord_foldWord (hw : 0 < w) (v : BitVec w) : unfoldWord (foldWord v) = v := by
  refine BitVec.toInt_inj.1 ?_
  rw [toInt_unfoldWord hw, toNat_foldWord hw, Varint.unzigzag_zigzag]

theorem foldWord_unfoldWord (hw : 0 < w) (v : BitVec w) : foldWord (unfoldWord v) = v := by
  refine BitVec.toNat_inj.1 ?_
  rw [toNat_foldWord hw, toInt_unfoldWord hw, Varint.zigzag_unzigzag]

end Words

/-! ### Exactness -/

theorem Width.bits_pos (w : Width) : 0 < w.bits := by cases w <;> decide

/-- What is written for a number is read back, whatever stands in front of it. -/
theorem Width.read_encode (w : Width) (hv : v < 2 ^ w.bits) (front : Tail) :
    w.read (Varint.encode v ++ front) = .ok (v, Varint.width v) := by
  have hnumeral := numeral_encode v
  have hend := EndsIn.intro (F := (Groups · v)) front (groups_iff_numeral.2 hnumeral)
  rw [ofBytes_toBytes, length_toBytes, Varint.length_encode] at hend
  refine Width.read_eq_ok_iff.2 ⟨hend, ?_, hv⟩
  exact Wire.width_le (by cases w <;> decide) (Nat.lt_of_lt_of_le hv w.bits_le_limit)

/-- A signed number that is folded in a word is read back. -/
theorem Width.readSigned_encode (w : Width) (v : BitVec w.bits) (front : Tail) :
    w.readSigned (Varint.encode (foldWord v).toNat ++ front) =
      .ok (v.toInt, Varint.width (foldWord v).toNat) := by
  rw [readSigned_eq, w.read_encode (foldWord v).isLt]
  change Except.ok (Varint.unzigzag (foldWord v).toNat, _) = _
  rw [toNat_foldWord w.bits_pos, Varint.unzigzag_zigzag]

/-- What is read is what is written unless a group of zeros stands in front. -/
theorem Width.take_eq_encode_iff {w : Width} (h : w.read t = .ok (v, n)) :
    t.take n = Varint.encode v ↔ n = 1 ∨ (toBytes (t.take n)).head? ≠ some 0 := by
  obtain ⟨hend, -, -⟩ := Width.read_eq_ok_iff.1 h
  obtain ⟨hle, hgroups⟩ := endsIn_iff_take.1 hend
  have hshortest := (groups_iff_numeral.1 hgroups).eq_encode_iff
  rw [Shortest, length_toBytes, List.length_take_of_le hle] at hshortest
  rw [← hshortest]
  exact List.reverse_inj.symm

/-- **Varints are read exactly, and written as short as can be**, at both widths. A string is read
as a number if it ends in groups of that number, no more of them than the width allows and the
number within its bits; any other string is cut off or of no valid size. What is written for a
number are groups of it, as many as predicted, and there are none that are fewer; a string that is
read is the one that is written if it is one group or its first is not zero. In a word of either
width folding and unfolding undo each other, so that signed numbers are read back, and a number of
the narrow width has one written form at both. -/
theorem varints_exact :
    (∀ w : Width,
      (∀ t v n, w.read t = .ok (v, n) ↔
        t.EndsIn n (Groups · v) ∧ n ≤ w.limit ∧ v < 2 ^ w.bits) ∧
      (∀ t e, w.read t = .error e → e = .truncated ∨ e = .invalidSize) ∧
      (∀ v < 2 ^ w.bits, Groups (toBytes (Varint.encode v)) v ∧
        (Varint.encode v).length = Varint.width v ∧ Varint.width v ≤ w.limit ∧
        ∀ g, Groups g v → Varint.width v ≤ g.length) ∧
      (∀ t v n, w.read t = .ok (v, n) →
        (t.take n = Varint.encode v ↔ n = 1 ∨ (toBytes (t.take n)).head? ≠ some 0)) ∧
      (∀ v : BitVec w.bits, (foldWord v).toNat = Varint.zigzag v.toInt ∧
        (unfoldWord v).toInt = Varint.unzigzag v.toNat ∧
        unfoldWord (foldWord v) = v ∧ foldWord (unfoldWord v) = v) ∧
      ∀ (v : BitVec w.bits) (front : Tail),
        w.readSigned (Varint.encode (foldWord v).toNat ++ front) =
          .ok (v.toInt, Varint.width (foldWord v).toNat)) ∧
    ∀ v : BitVec 32,
      Varint.encode (foldWord v).toNat = Varint.encode (foldWord (v.signExtend 64)).toNat := by
  refine ⟨fun w => ⟨fun t v n => Width.read_eq_ok_iff, fun t e => Width.error_of_read,
    fun v hv => ?_, fun t v n => Width.take_eq_encode_iff, fun v => ?_, w.readSigned_encode⟩,
    fun v => ?_⟩
  · obtain ⟨-, hlimit, -⟩ := Width.read_eq_ok_iff.1 (w.read_encode hv [])
    exact ⟨groups_iff_numeral.2 (numeral_encode v), Varint.length_encode v, hlimit,
      fun g hg => (groups_iff_numeral.1 hg).width_le⟩
  · exact ⟨toNat_foldWord w.bits_pos v, toInt_unfoldWord w.bits_pos v,
      unfoldWord_foldWord w.bits_pos v, foldWord_unfoldWord w.bits_pos v⟩
  · have hextend : (v.signExtend 64).toInt = v.toInt := BitVec.toInt_signExtend_of_le (by decide)
    rw [toNat_foldWord (by decide), toNat_foldWord (by decide), hextend]

/-- Three hundred in two groups and, with a group of zeros in front, in three; a number of 33 bits
in five; and a signed number behind another byte. -/
theorem varints_exact_padded :
    (300 < 2 ^ Width.narrow.bits ∧ Groups (toBytes (Varint.encode 300)) 300) ∧
      (Width.narrow.read (ofBytes [7, 2, 0xac]) = .ok (300, 2) ∧
        (ofBytes [7, 2, 0xac]).take 2 = Varint.encode 300) ∧
      (Width.narrow.read (ofBytes [7, 0, 0x82, 0xac]) = .ok (300, 3) ∧
        (ofBytes [7, 0, 0x82, 0xac]).take 3 ≠ Varint.encode 300) ∧
      (Width.narrow.read (ofBytes [0x10, 0x80, 0x80, 0x80, 0x80]) = .error .invalidSize ∧
        Width.wide.read (ofBytes [0x10, 0x80, 0x80, 0x80, 0x80]) = .ok (0x100000000, 5)) ∧
      Width.wide.readSigned (Varint.encode (foldWord (-150 : BitVec 64)).toNat ++ [7]) =
        .ok (-150, 2) := by
  obtain ⟨hwidths, -⟩ := varints_exact
  obtain ⟨-, -, hwrite, hshort, -⟩ := hwidths .narrow
  obtain ⟨-, -, -, -, -, hsigned⟩ := hwidths .wide
  have htwo : Width.narrow.read (ofBytes [7, 2, 0xac]) = .ok (300, 2) := by rfl
  have hthree : Width.narrow.read (ofBytes [7, 0, 0x82, 0xac]) = .ok (300, 3) := by rfl
  exact ⟨⟨by decide, (hwrite 300 (by decide)).1⟩, ⟨htwo, (hshort _ _ _ htwo).2 (by decide)⟩,
    ⟨hthree, fun h => absurd ((hshort _ _ _ hthree).1 h) (by decide)⟩, ⟨by rfl, by rfl⟩,
    hsigned (-150) [7]⟩

end Backwire.Wire
