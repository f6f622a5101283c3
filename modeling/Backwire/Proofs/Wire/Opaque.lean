import Backwire.Wire.Bin
import Backwire.Proofs.Text.Digits

/-!
# Opaque values as texts and as numbers

An opaque value is a string of bytes, and it is also a text of two digits a byte and a number in
base 256. What is compared is compared from the left in all three: the bytes, the digits, and the
digits in base 256. So the order of values is that of their texts (`Bin.compare_eq_compare_toHex`)
and that of their numbers (`Bin.compare_eq_compare_toNat`).
-/

namespace Backwire.Wire

/-! ### Strings of bytes in order -/

theorem compareOfLessAndEq_congr {α β : Type} [LT α] [DecidableLT α] [DecidableEq α] [LT β]
    [DecidableLT β] [DecidableEq β] {a b : α} {x y : β} (hlt : a < b ↔ x < y)
    (heq : a = b ↔ x = y) : compareOfLessAndEq a b = compareOfLessAndEq x y := by
  simp only [compareOfLessAndEq, hlt, heq]

namespace Bin

/-- Strings of bytes are compared as lists are. -/
theorem compareBytes_eq (as bs : List UInt8) :
    compareBytes as bs = compareOfLessAndEq as bs := by
  induction as generalizing bs with
  | nil => cases bs <;> rfl
  | cons a as ih =>
    cases bs with
    | nil => rfl
    | cons b bs =>
      rw [compareBytes, ih]
      rcases Nat.lt_trichotomy a.toNat b.toNat with hlt | heq | hgt
      · have hlt : a < b := UInt8.lt_iff_toNat_lt.2 hlt
        rw [if_pos hlt, compareOfLessAndEq, if_pos (List.cons_lt_cons_iff.2 (.inl hlt))]
      · obtain rfl := UInt8.toNat_inj.1 heq
        simp [compareOfLessAndEq]
      · have hgt : b < a := UInt8.lt_iff_toNat_lt.2 hgt
        have hle : ¬ a < b := UInt8.lt_asymm hgt
        have hne : a ≠ b := (UInt8.ne_of_lt hgt).symm
        rw [if_neg hle, if_pos hgt, compareOfLessAndEq, if_neg (by simp [List.cons_lt_cons_iff, *]),
          if_neg (by simp [hne])]

end Bin

namespace Word

variable {as bs : List UInt8}

theorem count_eq_pow (width : Nat) : count width = 2 ^ (8 * width) := by
  induction width with
  | zero => rfl
  | succ width ih => rw [count, ih, Nat.mul_succ, Nat.pow_add, Nat.mul_comm]

theorem ofTail_concat (t : List UInt8) (b : UInt8) :
    ofTail (t ++ [b]) = ofTail t + count t.length * b.toNat := by
  induction t with
  | nil => simp [ofTail, count]
  | cons c t ih =>
    rw [List.cons_append, ofTail, ih, ofTail, List.length_cons, count]
    ring

theorem ofBytes_cons (a : UInt8) (as : List UInt8) :
    ofBytes (a :: as) = count as.length * a.toNat + ofBytes as := by
  rw [ofBytes, List.reverse_cons, ofTail_concat, List.length_reverse, Nat.add_comm, ofBytes]

/-- The first byte that differs decides between two numbers of one width. -/
theorem ofBytes_lt_iff (h : as.length = bs.length) : ofBytes as < ofBytes bs ↔ as < bs := by
  induction as generalizing bs with
  | nil => cases bs <;> simp_all
  | cons a as ih =>
    cases bs with
    | nil => simp at h
    | cons b bs =>
      have hlen : as.length = bs.length := Nat.succ.inj h
      have has := ofBytes_lt as
      have hbs := ofBytes_lt bs
      rw [ofBytes_cons, ofBytes_cons, List.cons_lt_cons_iff, UInt8.lt_iff_toNat_lt,
        ← UInt8.toNat_inj, ← ih hlen, hlen]
      rw [hlen] at has
      rcases Nat.lt_trichotomy a.toNat b.toNat with hlt | heq | hgt
      · have := Nat.mul_le_mul_left (count bs.length) (Nat.succ_le_of_lt hlt)
        rw [Nat.mul_succ] at this
        exact iff_of_true (by omega) (.inl hlt)
      · rw [heq]
        omega
      · have := Nat.mul_le_mul_left (count bs.length) (Nat.succ_le_of_lt hgt)
        rw [Nat.mul_succ] at this
        exact iff_of_false (by omega) (by omega)

end Word

namespace Bin

variable {size : Nat}

/-- **What is read off a text.** -/
theorem ofHex_eq_ok_iff {text : String} {v : Bin size} : ofHex size text = .ok v ↔
    text.length = 2 * size ∧ (∀ c ∈ text.toList, Text.Hex.isDigit c) ∧ v.toHex = text.toLower := by
  rw [toHex, ← Text.Hex.decode_eq_ok_iff]
  unfold ofHex
  split
  · next e he => simp [he]
  · next bytes hbytes => simp [hbytes, Bin.ext_iff]

theorem ofHex_toHex (v : Bin size) : ofHex size v.toHex = .ok v := by
  have hread := Text.Hex.decode_encode v.bytes
  rw [v.length_bytes, Text.Hex.decode_eq_ok_iff] at hread
  exact ofHex_eq_ok_iff.2 hread

/-- **Values are ordered as their texts are.** -/
theorem compare_eq_compare_toHex (v w : Bin size) :
    v.compare w = Ord.compare v.toHex w.toHex := by
  refine (compareBytes_eq v.bytes w.bytes).trans (compareOfLessAndEq_congr ?_ ?_)
  · rw [toHex, toHex, Text.Hex.encode, Text.Hex.encode, String.lt_iff_toList_lt,
      String.toList_ofList, String.toList_ofList, Text.Hex.flatMap_digits_lt_iff]
  · rw [toHex, toHex, Text.Hex.encode, Text.Hex.encode, String.ofList_inj,
      Text.Hex.flatMap_digits_inj]

/-- **Values are ordered as their numbers are.** -/
theorem compare_eq_compare_toNat (v w : Bin size) :
    v.compare w = Ord.compare v.toNat w.toNat := by
  have hlen : v.bytes.length = w.bytes.length := v.length_bytes.trans w.length_bytes.symm
  refine (compareBytes_eq v.bytes w.bytes).trans (compareOfLessAndEq_congr ?_ ?_)
  · exact (Word.ofBytes_lt_iff hlen).symm
  · refine ⟨congrArg Word.ofBytes, fun h => congrArg bytes ?_⟩
    rw [← v.ofNat_toNat, ← w.ofNat_toNat]
    exact congrArg (ofNat size) h

end Bin

/-- **The forms of an opaque value correspond**, whatever its size. A text is read exactly if it is
two digits for each byte, of either case, and what is shown for the value is this text in small
letters; what is shown is read back. A number of this width is the number of its value, and a value
is that of its number. Values, what is shown for them and their numbers have one order. -/
theorem bin_forms_correspond (size : Nat) :
    (∀ text : String, ((∃ v, Bin.ofHex size text = .ok v) ↔
        text.length = 2 * size ∧ ∀ c ∈ text.toList, Text.Hex.isDigit c) ∧
      ∀ v, Bin.ofHex size text = .ok v → v.toHex = text.toLower) ∧
    (∀ v : Bin size, Bin.ofHex size v.toHex = .ok v) ∧
    (∀ v w : Bin size, v.compare w = compare v.toHex w.toHex) ∧
    (∀ n < 2 ^ (8 * size), (Bin.ofNat size n).toNat = n) ∧
    (∀ v : Bin size, v.toNat < 2 ^ (8 * size) ∧ Bin.ofNat size v.toNat = v) ∧
    (∀ v w : Bin size, v.compare w = compare v.toNat w.toNat) ∧
    ∀ m < 2 ^ (8 * size), ∀ n < 2 ^ (8 * size),
      (Bin.ofNat size m).compare (Bin.ofNat size n) = compare m n := by
  have hnumber (n : Nat) (hn : n < 2 ^ (8 * size)) : (Bin.ofNat size n).toNat = n :=
    Bin.toNat_ofNat (Word.count_eq_pow size ▸ hn)
  refine ⟨fun text => ⟨⟨?_, ?_⟩, fun v hv => (Bin.ofHex_eq_ok_iff.1 hv).2.2⟩, Bin.ofHex_toHex,
    Bin.compare_eq_compare_toHex, hnumber, fun v => ⟨?_, v.ofNat_toNat⟩,
    Bin.compare_eq_compare_toNat, fun m hm n hn => ?_⟩
  · rintro ⟨v, hv⟩
    obtain ⟨hlen, hdigits, -⟩ := Bin.ofHex_eq_ok_iff.1 hv
    exact ⟨hlen, hdigits⟩
  · rintro ⟨hlen, hdigits⟩
    obtain ⟨bytes, hread, hbytes⟩ := Text.Hex.exists_decode hlen hdigits
    exact ⟨⟨bytes, Text.Hex.length_decode hread⟩, Bin.ofHex_eq_ok_iff.2 ⟨hlen, hdigits, hbytes⟩⟩
  · have hlt := Word.ofBytes_lt v.bytes
    rwa [v.length_bytes, Word.count_eq_pow] at hlt
  · rw [Bin.compare_eq_compare_toNat, hnumber m hm, hnumber n hn]

/-- A text of both cases that is read as eight bytes, one that takes sixteen bytes and is not, and
three numbers of this width. -/
theorem bin_forms_correspond_bin64 :
    (∃ v, Bin.ofHex 8 "0123456789abCDEF" = .ok v ∧ v.toHex = "0123456789abcdef" ∧
        Bin.ofHex 8 v.toHex = .ok v) ∧
      (¬∃ v, Bin.ofHex 8 "é123456789abcde" = .ok v) ∧
      300 < 2 ^ (8 * 8) ∧ (Bin.ofNat 8 300).toNat = 300 ∧
      255 < 2 ^ (8 * 8) ∧ 256 < 2 ^ (8 * 8) ∧
      (Bin.ofNat 8 255).compare (Bin.ofNat 8 256) = .lt := by
  obtain ⟨htext, hback, -, hnumber, -, -, horder⟩ := bin_forms_correspond 8
  obtain ⟨v, hv⟩ := (htext "0123456789abCDEF").1.2
    ⟨by cbv, List.all_eq_true.1 (by cbv)⟩
  refine ⟨⟨v, hv, ((htext _).2 v hv).trans (by cbv), hback v⟩, ?_, by decide,
    hnumber 300 (by decide), by decide, by decide, ?_⟩
  · rw [(htext "é123456789abcde").1]
    exact fun h => absurd h.1 (by cbv)
  · rw [horder 255 (by decide) 256 (by decide)]
    rfl

end Backwire.Wire
