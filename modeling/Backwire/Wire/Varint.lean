import Backwire.Wire.Tail

/-!
# Reverse varints

A number is cut into groups of seven bits. The group that stands last holds the lowest bits, and
every group except the one that stands first has its high bit set, so a reader that starts at
the end stops by itself. Signed numbers are first folded onto the natural ones, so that small
negative numbers stay short.

Listed from the last byte, the written form is `Varint.encode`. The main statement here is
`Varint.length_encode`: the width predicted from the number is the width written.
-/

namespace Backwire.Wire.Varint

/-- The written form of `v`, last byte first. -/
def encode (v : Nat) : List UInt8 :=
  if v < 128 then [v.toUInt8] else (v % 128 + 128).toUInt8 :: encode (v / 128)
termination_by v
decreasing_by omega

/-- How many bytes `v` is written in: one per seven bits, and one for zero. -/
def width (v : Nat) : Nat := v.log2 / 7 + 1

/-- Reads the groups of a number of which `index` were read before. No more than `limit` bytes
are read, and the tenth may only carry the one bit that 64 leaves for it. -/
def readGroups (limit : Nat) : Nat → Tail → Except WireError (Nat × Nat)
  | _, [] => .error .truncated
  | index, b :: rest =>
    if index = limit then .error .invalidSize
    else if index = 9 ∧ 1 < b.toNat % 128 then .error .invalidSize
    else if b.toNat < 128 then .ok (b.toNat, 1)
    else
      match readGroups limit (index + 1) rest with
      | .error e => .error e
      | .ok (v, n) => .ok (b.toNat % 128 + 128 * v, n + 1)

/-- Reads a number below 2⁶⁴ in at most ten bytes. -/
def read64 : Reader Nat := readGroups 10 0

/-- Reads a number below 2³² in at most five bytes. -/
def read32 : Reader Nat := fun t =>
  match readGroups 5 0 t with
  | .error e => .error e
  | .ok (v, n) => if v < 0x100000000 then .ok (v, n) else .error .invalidSize

/-! ### Signed numbers -/

/-- Folds the integers onto the natural numbers: 0, -1, 1, -2, 2 become 0, 1, 2, 3, 4. -/
def zigzag : Int → Nat
  | .ofNat n => 2 * n
  | .negSucc n => 2 * n + 1

/-- Unfolds what `zigzag` folded. -/
def unzigzag (n : Nat) : Int :=
  if n % 2 = 0 then .ofNat (n / 2) else .negSucc (n / 2)

/-- Reads a signed number of 64 bits. -/
def readSigned64 : Reader Int := fun t =>
  match read64 t with
  | .error e => .error e
  | .ok (v, n) => .ok (unzigzag v, n)

/-- Reads a signed number of 32 bits. -/
def readSigned32 : Reader Int := fun t =>
  match read32 t with
  | .error e => .error e
  | .ok (v, n) => .ok (unzigzag v, n)

/-! ### Laws -/

@[simp] theorem unzigzag_zigzag (v : Int) : unzigzag (zigzag v) = v := by
  cases v with
  | ofNat n =>
    have h1 : 2 * n % 2 = 0 := by omega
    have h2 : 2 * n / 2 = n := by omega
    simp [zigzag, unzigzag, h2]
  | negSucc n =>
    have h1 : (2 * n + 1) % 2 = 1 := by omega
    have h2 : (2 * n + 1) / 2 = n := by omega
    simp [zigzag, unzigzag, h1, h2]

@[simp] theorem zigzag_unzigzag (n : Nat) : zigzag (unzigzag n) = n := by
  unfold unzigzag
  split
  · rename_i h; show 2 * (n / 2) = n; omega
  · rename_i h; show 2 * (n / 2) + 1 = n; omega

theorem encode_ne_nil (v : Nat) : encode v ≠ [] := by
  rw [encode]; split <;> simp

theorem width_of_lt {v : Nat} (h : v < 128) : width v = 1 := by
  unfold width
  have : v.log2 < 7 := by
    by_cases hv : v = 0
    · subst hv; decide
    · exact (Nat.log2_lt hv).2 (by omega)
  omega

theorem width_of_le {v : Nat} (h : 128 ≤ v) : width v = width (v / 128) + 1 := by
  unfold width
  have hlog : v.log2 = (v / 128).log2 + 7 := by
    have hv : v / 128 ≠ 0 := by omega
    have hlo := Nat.log2_self_le hv
    have hhi := Nat.lt_log2_self (n := v / 128)
    apply (Nat.log2_eq_iff (by omega)).2
    constructor
    · rw [Nat.pow_add]; omega
    · rw [show (v / 128).log2 + 7 + 1 = ((v / 128).log2 + 1) + 7 by omega, Nat.pow_add]; omega
  omega

/-- The predicted width is the number of bytes written. -/
@[simp] theorem length_encode (v : Nat) : (encode v).length = width v := by
  induction v using Nat.strongRecOn with
  | ind v ih =>
    rw [encode]
    split
    · rename_i h; simp [width_of_lt h]
    · rename_i h
      rw [List.length_cons, ih (v / 128) (by omega)]
      exact (width_of_le (by omega)).symm

end Backwire.Wire.Varint
