import Backwire.Wire.Error

/-!
# Byte strings read from the end

A value is read from its last byte backwards, and a buffer grows at its end. So a byte string is
kept here as the list of its bytes from the last to the first: the head is where reading starts
and where writing adds. What stands in front of a value is then what follows it in the list, and
no reader ever has to look there.

`Tail.upTo` and `Tail.slot` cut a region out of a byte string by positions counted from its
first byte, as tables store them.
-/

namespace Backwire.Wire

/-- A byte string listed from its last byte to its first. -/
abbrev Tail := List UInt8

/-- A reader takes a value off the end of a byte string and says how many bytes it used. -/
abbrev Reader (α : Type) := Tail → Except WireError (α × Nat)

namespace Tail

/-- The byte string with the given bytes, first byte first. -/
def ofBytes (bytes : List UInt8) : Tail := bytes.reverse

/-- The bytes, first byte first. -/
def toBytes (t : Tail) : List UInt8 := List.reverse t

@[simp] theorem toBytes_ofBytes (bytes : List UInt8) : toBytes (ofBytes bytes) = bytes :=
  List.reverse_reverse bytes

@[simp] theorem ofBytes_toBytes (t : Tail) : ofBytes (toBytes t) = t :=
  List.reverse_reverse t

/-- Concatenation puts the second string in front of the first in reading order. -/
theorem ofBytes_append (a b : List UInt8) : ofBytes (a ++ b) = ofBytes b ++ ofBytes a :=
  List.reverse_append

/-- The first `stop` bytes, or nothing if there are fewer. -/
def upTo (t : Tail) (stop : Nat) : Option Tail :=
  if stop ≤ t.length then some (t.drop (t.length - stop)) else none

/-- The bytes from position `start` to position `stop`, or nothing if that is no region. -/
def slot (t : Tail) (start stop : Nat) : Option Tail :=
  if start ≤ stop ∧ stop ≤ t.length then
    some ((t.drop (t.length - stop)).take (stop - start))
  else none

end Tail

/-! ### Numbers of fixed width -/

namespace Word

/-- The number whose big-endian bytes end in the given ones, read backwards. -/
def ofTail : List UInt8 → Nat
  | [] => 0
  | b :: rest => b.toNat + 256 * ofTail rest

/-- The last `width` big-endian bytes of `n`, last byte first. -/
def toTail : Nat → Nat → List UInt8
  | 0, _ => []
  | width + 1, n => n.toUInt8 :: toTail width (n / 256)

/-- How many numbers have `width` bytes. -/
def count : Nat → Nat
  | 0 => 1
  | width + 1 => 256 * count width

/-- The number with the given big-endian bytes. -/
def ofBytes (bytes : List UInt8) : Nat := ofTail bytes.reverse

/-- The last `width` big-endian bytes of `n`. -/
def toBytes (width n : Nat) : List UInt8 := (toTail width n).reverse

@[simp] theorem length_toTail (width n : Nat) : (toTail width n).length = width := by
  induction width generalizing n with
  | zero => rfl
  | succ w ih => simp [toTail, ih]

@[simp] theorem length_toBytes (width n : Nat) : (toBytes width n).length = width := by
  simp [toBytes]

theorem ofTail_lt (bytes : List UInt8) : ofTail bytes < count bytes.length := by
  induction bytes with
  | nil => simp [ofTail, count]
  | cons b rest ih =>
    have hb := b.toNat_lt
    simp only [ofTail, List.length_cons, count]
    omega

theorem ofBytes_lt (bytes : List UInt8) : ofBytes bytes < count bytes.length := by
  have := ofTail_lt bytes.reverse
  rwa [List.length_reverse] at this

/-- Of a number that does not fit, its low bytes are left. -/
theorem ofTail_toTail_eq_mod (width n : Nat) : ofTail (toTail width n) = n % count width := by
  induction width generalizing n with
  | zero => exact (Nat.mod_one n).symm
  | succ w ih =>
    have hlow : n.toUInt8.toNat = n % 256 := by simp
    rw [toTail, ofTail, ih, count, Nat.mod_mul, hlow]

/-- Bytes are the bytes of their number. -/
theorem toTail_ofTail (bytes : List UInt8) : toTail bytes.length (ofTail bytes) = bytes := by
  induction bytes with
  | nil => rfl
  | cons b rest ih =>
    have hb := b.toNat_lt
    have hq : (b.toNat + 256 * ofTail rest) / 256 = ofTail rest := by omega
    have hm : (b.toNat + 256 * ofTail rest).toUInt8 = b := by
      apply UInt8.toNat_inj.1
      simp
    simp only [List.length_cons, toTail, ofTail, hq, ih, hm]

theorem ofBytes_toBytes_eq_mod (width n : Nat) :
    ofBytes (toBytes width n) = n % count width := by
  simp [ofBytes, toBytes, ofTail_toTail_eq_mod]

@[simp] theorem ofBytes_toBytes {width n : Nat} (h : n < count width) :
    ofBytes (toBytes width n) = n := by
  rw [ofBytes_toBytes_eq_mod, Nat.mod_eq_of_lt h]

theorem toBytes_ofBytes (bytes : List UInt8) : toBytes bytes.length (ofBytes bytes) = bytes := by
  have h := toTail_ofTail bytes.reverse
  simp only [List.length_reverse] at h
  simp [toBytes, ofBytes, h]

end Word

end Backwire.Wire
