import Backwire.Text.Shown

/-!
# Bytes in hexadecimal

Bytes are written with two lower-case digits each and read with digits of either case. Reading
into a given number of bytes looks at the number of digits first, and then at the digits from
the left.
-/

namespace Backwire.Text.Hex

/-- The digit of a number below sixteen. -/
def digit (n : Nat) : Char := if n < 10 then Char.ofNat (48 + n) else Char.ofNat (87 + n)

/-- The two digits of a byte, as ASCII characters. -/
def digits (b : UInt8) : List Char := [digit (b.toNat / 16), digit (b.toNat % 16)]

/-- Bytes in hexadecimal. -/
def encode (bytes : List UInt8) : String := String.ofList (bytes.flatMap digits)

/-- Why a text is not the bytes asked for. -/
inductive HexError where
  /-- The digits do not pair up. -/
  | oddLength
  /-- There are not two digits for each byte. -/
  | invalidLength
  /-- A byte of the text is no digit. -/
  | invalidDigit (byte : UInt8) (position : Nat)
  deriving DecidableEq, Repr

/-- The report of an error. A byte that is no digit is shown as the character of that number. -/
def HexError.message : HexError → String
  | oddLength => "Odd number of digits"
  | invalidLength => "Invalid string length"
  | invalidDigit byte position =>
    "Invalid character " ++ shownQuoted (Char.ofNat byte.toNat) ++ " at position "
      ++ toString position

/-- The value of a digit of either case. -/
def value? (b : UInt8) : Option Nat :=
  if 48 ≤ b ∧ b ≤ 57 then some (b.toNat - 48)
  else if 97 ≤ b ∧ b ≤ 102 then some (b.toNat - 87)
  else if 65 ≤ b ∧ b ≤ 70 then some (b.toNat - 55)
  else none

/-- The bytes of a text whose digits begin at `position`. -/
def decodeDigits : Nat → List UInt8 → Except HexError (List UInt8)
  | _, [] => .ok []
  | _, [_] => .error .oddLength
  | position, high :: low :: rest =>
    match value? high, value? low with
    | none, _ => .error (.invalidDigit high position)
    | _, none => .error (.invalidDigit low (position + 1))
    | some h, some l =>
      match decodeDigits (position + 2) rest with
      | .error e => .error e
      | .ok bytes => .ok ((16 * h + l).toUInt8 :: bytes)

/-- Reads exactly `size` bytes. -/
def decode (size : Nat) (text : String) : Except HexError (List UInt8) :=
  let bytes := text.toUTF8.data.toList
  if bytes.length % 2 ≠ 0 then .error .oddLength
  else if bytes.length / 2 ≠ size then .error .invalidLength
  else decodeDigits 0 bytes

/-- Reading yields one byte per two digits. -/
theorem length_decodeDigits {position : Nat} {text bytes : List UInt8}
    (h : decodeDigits position text = .ok bytes) : 2 * bytes.length = text.length := by
  fun_induction decodeDigits position text generalizing bytes with
  | case1 => cases h; rfl
  | case2 => cases h
  | case3 => cases h
  | case4 => cases h
  | case5 => cases h
  | case6 position high low rest hi lo _ _ tail htail ih =>
    cases h
    have := ih htail
    simp only [List.length_cons]
    omega

theorem length_decode {size : Nat} {text : String} {bytes : List UInt8}
    (h : decode size text = .ok bytes) : bytes.length = size := by
  unfold decode at h
  simp only at h
  split at h
  · cases h
  · split at h
    · cases h
    · have := length_decodeDigits h
      omega

end Backwire.Text.Hex
