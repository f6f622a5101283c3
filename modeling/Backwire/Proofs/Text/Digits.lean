import Mathlib
import Backwire.Text.Hex

/-!
# Digits of bytes

Which texts are read as bytes, and as which. Only characters of ASCII are digits, and a character
that takes several bytes consists of none of theirs (`lt_of_mem_utf8EncodeChar`), so that a text is
as many digits as it is bytes. What is read is the bytes that are written as the text in small
letters (`decode_eq_ok_iff`).

The digits of a byte are in the order of their values, and those of the higher half stand first. So
texts of bytes are in the order of the bytes (`flatMap_digits_lt_iff`), and no two strings of bytes
have one text.
-/

namespace Backwire.Text

variable {c : Char} {b : UInt8} {cs : List Char}

/-! ### Bytes of characters -/

theorem utf8EncodeChar_of_lt (h : c.toNat < 128) : String.utf8EncodeChar c = [c.toNat.toUInt8] :=
  if_pos (Nat.le_of_lt_succ h)

/-- A byte of ASCII is a character by itself: all bytes of a longer form are marked. -/
theorem lt_of_mem_utf8EncodeChar (hb : b ∈ String.utf8EncodeChar c) (h : b.toNat < 128) :
    c.toNat < 128 := by
  by_contra hc
  have hc : ¬ c.val.toNat ≤ 127 := fun h => hc (Nat.lt_succ_of_le h)
  unfold String.utf8EncodeChar at hb
  simp only [if_neg hc] at hb
  split_ifs at hb <;> simp only [List.mem_cons, List.not_mem_nil, or_false] at hb <;>
    rcases hb with rfl | rfl | rfl | rfl <;> simp at h <;> omega

/-- Characters of ASCII are a byte each. -/
theorem flatMap_utf8EncodeChar (h : ∀ c ∈ cs, c.toNat < 128) :
    cs.flatMap String.utf8EncodeChar = cs.map fun c => c.toNat.toUInt8 := by
  induction cs with
  | nil => rfl
  | cons c cs ih =>
    obtain ⟨hc, hcs⟩ := List.forall_mem_cons.1 h
    rw [List.flatMap_cons, utf8EncodeChar_of_lt hc, ih hcs, List.map_cons, List.singleton_append]

theorem toList_toUTF8 (text : String) :
    text.toUTF8.data.toList = text.toList.flatMap String.utf8EncodeChar := by
  conv_lhs => rw [← String.ofList_toList (s := text)]
  rw [String.toUTF8, String.toByteArray_ofList, List.utf8Encode, List.data_toByteArray]

namespace Hex

/-! ### Digits -/

/-- Whether a character is a digit of either case. -/
def isDigit (c : Char) : Bool := c.isDigit || 'a' ≤ c && c ≤ 'f' || 'A' ≤ c && c ≤ 'F'

theorem isDigit_iff : isDigit c ↔
    48 ≤ c.toNat ∧ c.toNat ≤ 57 ∨ 97 ≤ c.toNat ∧ c.toNat ≤ 102 ∨
      65 ≤ c.toNat ∧ c.toNat ≤ 70 := by
  simp only [isDigit, Char.isDigit, Char.le_def, UInt32.le_iff_toNat_le, Bool.or_eq_true,
    Bool.and_eq_true, decide_eq_true_eq, ge_iff_le, or_assoc]
  exact Iff.rfl

theorem lt_of_isDigit (h : isDigit c) : c.toNat < 128 := by
  have := isDigit_iff.1 h
  omega

theorem lt_of_value? (h : (value? b).isSome) : b.toNat < 128 := by
  simp only [value?, UInt8.le_iff_toNat_le] at h
  split_ifs at h <;> simp at * <;> omega

/-- The characters whose bytes have values are the digits. -/
theorem value?_isSome_iff (h : c.toNat < 128) :
    (value? c.toNat.toUInt8).isSome ↔ isDigit c := by
  have hb : c.toNat.toUInt8.toNat = c.toNat := by simp; omega
  simp only [isDigit_iff, value?, UInt8.le_iff_toNat_le, hb]
  split_ifs <;> simp at * <;> omega

/-- A digit has a value, and the digit of this value is the small form of it. -/
theorem exists_value?_of_isDigit (h : isDigit c) :
    ∃ n < 16, value? c.toNat.toUInt8 = some n ∧ digit n = c.toLower := by
  rw [← Char.ofNat_toNat c] at h ⊢
  have hcodes := isDigit_iff.1 h
  rw [Char.ofNat_toNat] at hcodes
  clear h
  generalize c.toNat = code at hcodes
  rcases hcodes with hcode | hcode | hcode <;> obtain ⟨hlow, hhigh⟩ := hcode <;>
    interval_cases code <;> decide

theorem isDigit_digit : ∀ n < 16, isDigit (digit n) ∧ (digit n).toLower = digit n := by decide

theorem digit_lt_digit {m n : Nat} (hm : m < 16) (hn : n < 16) : digit m < digit n ↔ m < n := by
  interval_cases m <;> interval_cases n <;> decide

theorem digit_inj {m n : Nat} (hm : m < 16) (hn : n < 16) : digit m = digit n ↔ m = n := by
  interval_cases m <;> interval_cases n <;> decide

/-! ### Texts -/

theorem isSome_of_decodeDigits {position : Nat} {text bytes : List UInt8}
    (h : decodeDigits position text = .ok bytes) : ∀ b ∈ text, (value? b).isSome := by
  fun_induction decodeDigits position text generalizing bytes with
  | case1 => simp
  | case2 | case3 | case4 | case5 => cases h
  | case6 position high low rest hi lo hhigh hlow tail htail ih =>
    rw [List.forall_mem_cons, List.forall_mem_cons, hhigh, hlow]
    exact ⟨rfl, rfl, ih htail⟩

/-- Two digits are those of a byte. -/
theorem digits_toUInt8 {high low : Nat} (hhigh : high < 16) (hlow : low < 16) :
    digits (16 * high + low).toUInt8 = [digit high, digit low] := by
  have hbyte : (16 * high + low).toUInt8.toNat = 16 * high + low := by simp; omega
  rw [digits, hbyte, show (16 * high + low) / 16 = high by omega,
    show (16 * high + low) % 16 = low by omega]

/-- **Digits that pair up are read**, and what is written for the bytes are their small forms. -/
theorem exists_decodeDigits (position : Nat) : ∀ {cs : List Char}, (∀ c ∈ cs, isDigit c) →
    cs.length % 2 = 0 →
      ∃ bytes, decodeDigits position (cs.map fun c => c.toNat.toUInt8) = .ok bytes ∧
        bytes.flatMap digits = cs.map Char.toLower
  | [], _, _ => ⟨[], rfl, rfl⟩
  | [_], _, hodd => nomatch hodd
  | c :: d :: cs, h, heven => by
    rw [List.forall_mem_cons, List.forall_mem_cons] at h
    obtain ⟨hc, hd, hcs⟩ := h
    obtain ⟨high, hhigh, hvalue, hsmall⟩ := exists_value?_of_isDigit hc
    obtain ⟨low, hlow, hvalue', hsmall'⟩ := exists_value?_of_isDigit hd
    rw [List.length_cons, List.length_cons] at heven
    obtain ⟨bytes, hread, hbytes⟩ := exists_decodeDigits (position + 2) hcs (by omega)
    refine ⟨(16 * high + low).toUInt8 :: bytes, ?_, ?_⟩
    · simp only [List.map_cons, decodeDigits, hvalue, hvalue', hread]
    · simp only [List.flatMap_cons, digits_toUInt8 hhigh hlow, hbytes, hsmall, hsmall',
        List.map_cons, List.cons_append, List.nil_append]

/-- **A text is read if it is as many digits as are asked for**, of either case. -/
theorem exists_decode {size : Nat} {text : String} (hlen : text.length = 2 * size)
    (h : ∀ c ∈ text.toList, isDigit c) :
    ∃ bytes, decode size text = .ok bytes ∧ encode bytes = text.toLower := by
  have hcodes : text.toUTF8.data.toList = text.toList.map fun c => c.toNat.toUInt8 := by
    rw [toList_toUTF8, flatMap_utf8EncodeChar fun c hc => lt_of_isDigit (h c hc)]
  have hcount : text.toList.length = 2 * size := by rw [String.length_toList, hlen]
  obtain ⟨bytes, hread, hbytes⟩ := exists_decodeDigits 0 h (by omega)
  refine ⟨bytes, ?_, ?_⟩
  · simp only [decode, hcodes, List.length_map, hcount]
    rw [if_neg (by omega), if_neg (by omega), hread]
  · rw [encode, hbytes, ← String.toList_map, String.ofList_toList, String.toLower]

/-- What is read is nothing but digits. A character that takes several bytes is none, also if the
number of bytes is right. -/
theorem isDigit_of_decode {size : Nat} {text : String} {bytes : List UInt8}
    (h : decode size text = .ok bytes) :
    text.length = 2 * size ∧ ∀ c ∈ text.toList, isDigit c := by
  unfold decode at h
  simp only [toList_toUTF8] at h
  split_ifs at h with hodd hsize
  have hvalues := isSome_of_decodeDigits h
  have hsmall : ∀ c ∈ text.toList, c.toNat < 128 := by
    intro c hc
    obtain ⟨b, hb⟩ := List.exists_mem_of_ne_nil _ (String.utf8EncodeChar_ne_nil (c := c))
    exact lt_of_mem_utf8EncodeChar hb (lt_of_value? (hvalues b (List.mem_flatMap.2 ⟨c, hc, hb⟩)))
  rw [flatMap_utf8EncodeChar hsmall] at hvalues hodd hsize
  rw [List.length_map, String.length_toList] at hodd hsize
  refine ⟨by omega, fun c hc => ?_⟩
  exact (value?_isSome_iff (hsmall c hc)).1 (hvalues _ (List.mem_map_of_mem hc))

/-- Digits are compared as their bytes are. -/
theorem flatMap_digits_lt_iff {as bs : List UInt8} :
    as.flatMap digits < bs.flatMap digits ↔ as < bs := by
  induction as generalizing bs with
  | nil => cases bs <;> simp [digits]
  | cons a as ih =>
    cases bs with
    | nil => simp
    | cons b bs =>
      have hdigits (b : UInt8) : b.toNat / 16 < 16 ∧ b.toNat % 16 < 16 := by
        have := b.toNat_lt
        omega
      obtain ⟨⟨hahigh, halow⟩, hbhigh, hblow⟩ := And.intro (hdigits a) (hdigits b)
      rw [List.flatMap_cons, List.flatMap_cons]
      simp only [digits, List.cons_append, List.nil_append, List.cons_lt_cons_iff, ih,
        digit_lt_digit hahigh hbhigh, digit_lt_digit halow hblow, digit_inj hahigh hbhigh,
        digit_inj halow hblow, UInt8.lt_iff_toNat_lt, ← UInt8.toNat_inj]
      -- the halves decide what the bytes decide, and where both agree the rest does
      by_cases hrest : as < bs <;> simp [hrest] <;> omega

/-- Digits tell bytes apart. -/
theorem flatMap_digits_inj {as bs : List UInt8} :
    as.flatMap digits = bs.flatMap digits ↔ as = bs := by
  refine ⟨fun h => ?_, congrArg (List.flatMap digits)⟩
  have hnot {as bs : List UInt8} (h : as.flatMap digits = bs.flatMap digits) : ¬ as < bs :=
    fun hlt => List.lt_irrefl _ (h ▸ flatMap_digits_lt_iff.2 hlt)
  exact Std.Trichotomous.trichotomous as bs (hnot h) (hnot h.symm)

/-- **What is read off a text**: a text of digits of either case, as many as are asked for, is read
as the bytes that are written as its small form. -/
theorem decode_eq_ok_iff {size : Nat} {text : String} {bytes : List UInt8} :
    decode size text = .ok bytes ↔
      text.length = 2 * size ∧ (∀ c ∈ text.toList, isDigit c) ∧ encode bytes = text.toLower := by
  constructor
  · intro h
    obtain ⟨hlen, hdigits⟩ := isDigit_of_decode h
    obtain ⟨bytes', hread, hbytes⟩ := exists_decode hlen hdigits
    cases h.symm.trans hread
    exact ⟨hlen, hdigits, hbytes⟩
  · rintro ⟨hlen, hdigits, hbytes⟩
    obtain ⟨bytes', hread, hbytes'⟩ := exists_decode hlen hdigits
    have hsame := String.ofList_injective (hbytes.trans hbytes'.symm)
    rw [hread, flatMap_digits_inj.1 hsame]

theorem isDigit_of_mem_flatMap_digits {bytes : List UInt8} (hc : c ∈ bytes.flatMap digits) :
    isDigit c ∧ c.toLower = c := by
  obtain ⟨b, -, hb⟩ := List.mem_flatMap.1 hc
  have hlt := b.toNat_lt
  rcases List.mem_pair.1 hb with rfl | rfl
  · exact isDigit_digit _ (by omega)
  · exact isDigit_digit _ (by omega)

/-- **Bytes are read back from their digits.** -/
theorem decode_encode (bytes : List UInt8) : decode bytes.length (encode bytes) = .ok bytes := by
  have hdigits := fun c (hc : c ∈ bytes.flatMap digits) => isDigit_of_mem_flatMap_digits hc
  refine decode_eq_ok_iff.2 ⟨?_, ?_, ?_⟩
  · rw [encode, String.length_ofList, List.length_flatMap]
    simp [digits, Nat.mul_comm]
  · rw [encode, String.toList_ofList]
    exact fun c hc => (hdigits c hc).1
  · refine String.toList_injective ?_
    rw [String.toLower, String.toList_map, encode, String.toList_ofList]
    exact ((List.map_congr_left fun c hc => (hdigits c hc).2).trans (List.map_id _)).symm

end Hex

end Backwire.Text
