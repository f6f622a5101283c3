import Backwire.Wire.Tail

/-!
# Opaque binary values

A value of a fixed number of bytes, typically an identifier or a digest, that shows itself in
hexadecimal. Read as a big-endian number it corresponds to a natural number of that width.
-/

namespace Backwire.Wire

/-- A value of `size` bytes, first byte first. -/
structure Bin (size : Nat) where
  /-- The bytes. -/
  bytes : List UInt8
  length_bytes : bytes.length = size
  deriving DecidableEq

namespace Bin

variable {size : Nat}

@[ext] theorem ext {a b : Bin size} (h : a.bytes = b.bytes) : a = b := by
  cases a; cases b; cases h; rfl

/-- The value of the given bytes, if there are as many as it takes. -/
def ofList? (size : Nat) (bytes : List UInt8) : Option (Bin size) :=
  if h : bytes.length = size then some ⟨bytes, h⟩ else none

/-- The value whose bytes are all zero. -/
def zero (size : Nat) : Bin size := ⟨List.replicate size 0, by simp⟩

/-- Whether every byte is zero. -/
def isZero (v : Bin size) : Bool := v.bytes.all (· == 0)

/-- The value in lower-case hexadecimal. -/
def toHex (v : Bin size) : String := Text.Hex.encode v.bytes

/-- Reads hexadecimal digits of either case. -/
def ofHex (size : Nat) (text : String) : Except Text.Hex.HexError (Bin size) :=
  match h : Text.Hex.decode size text with
  | .error e => .error e
  | .ok bytes => .ok ⟨bytes, Text.Hex.length_decode h⟩

/-- The value of a number, of which the lowest bytes are kept. -/
def ofNat (size n : Nat) : Bin size := ⟨Word.toBytes size n, by simp⟩

/-- The number that the bytes write in base 256. -/
def toNat (v : Bin size) : Nat := Word.ofBytes v.bytes

/-- Compares byte strings: the first bytes that differ decide, then the length. -/
def compareBytes : List UInt8 → List UInt8 → Ordering
  | [], [] => .eq
  | [], _ :: _ => .lt
  | _ :: _, [] => .gt
  | a :: as, b :: bs =>
    if a < b then .lt else if b < a then .gt else compareBytes as bs

/-- Compares values by their bytes. -/
def compare (a b : Bin size) : Ordering := compareBytes a.bytes b.bytes

@[simp] theorem toNat_ofNat {n : Nat} (h : n < Word.count size) : (ofNat size n).toNat = n :=
  Word.ofBytes_toBytes h

@[simp] theorem ofNat_toNat (v : Bin size) : ofNat size v.toNat = v := by
  obtain ⟨bytes, h⟩ := v
  subst h
  exact ext (Word.toBytes_ofBytes bytes)

end Bin

end Backwire.Wire
