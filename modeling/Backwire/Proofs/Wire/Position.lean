import Backwire.Proofs.Wire.Locality
import Backwire.Proofs.Wire.Parts

/-!
# Reading by positions

A machine holds a byte string as an array and looks into it by positions counted from the first
byte: at one byte, at the region between two positions, and at what is left when a size is
subtracted from another. Nothing may lie outside. Here the payload in front of a tag is taken off
in this way, and every look is checked; `Fault.outside` is what a check reports that fails.

No check fails, whatever the bytes are (`Position.payload_eq`): the few comparisons the reader
makes, of the whole size with what there is, are enough for all positions that are computed from
it.
-/

namespace Backwire.Wire

open Tail

/-! ### Checked steps -/

/-- Why a calculation with positions gives nothing. -/
inductive Fault where
  /-- The bytes are refused. -/
  | refused (e : WireError)
  /-- A position, a region or a difference does not exist. -/
  | outside
  deriving DecidableEq

/-- The result of a calculation with positions. -/
abbrev Guarded (α : Type) := Except Fault α

/-- A calculation without positions refuses bytes, and nothing else can go wrong. -/
def Guarded.ofExcept {α : Type} : Except WireError α → Guarded α
  | .ok a => .ok a
  | .error e => .error (.refused e)

/-- Two calculations in two steps agree where their second steps do. -/
theorem Guarded.bind_ofExcept {α β : Type} {x : Except WireError α} {f : α → Except WireError β}
    {g : α → Guarded β} (h : ∀ a, x = .ok a → g a = ofExcept (f a)) :
    ofExcept x >>= g = ofExcept (x >>= f) := by
  cases x with
  | error e => rfl
  | ok a => exact h a rfl

theorem Guarded.ofExcept_ne_outside {α : Type} (x : Except WireError α) :
    ofExcept x ≠ .error .outside := by
  cases x <;> nofun

namespace Position

/-- The difference of two positions or sizes, which must not fall below zero. -/
def minus (a b : Nat) : Guarded Nat := if b ≤ a then .ok (a - b) else .error .outside

/-- The product of an index and a width. The limit is what the size of every value keeps to, so a
machine that holds the value can count as far. -/
def times (a b : Nat) : Guarded Nat := if a * b ≤ maxSize then .ok (a * b) else .error .outside

/-- The bytes between two positions, or nothing if that is no region. -/
def region? (b : List UInt8) (start stop : Nat) : Option (List UInt8) :=
  if start ≤ stop ∧ stop ≤ b.length then some ((b.take stop).drop start) else none

/-- The bytes between two positions, which must be a region. -/
def region (b : List UInt8) (start stop : Nat) : Guarded (List UInt8) :=
  match region? b start stop with
  | some bytes => .ok bytes
  | none => .error .outside

/-- The byte at a position, which must be there. -/
def byteAt (b : List UInt8) (i : Nat) : Guarded UInt8 :=
  match b[i]? with
  | some byte => .ok byte
  | none => .error .outside

/-- Bytes that must be as many as are copied. -/
def exactly (width : Nat) (b : List UInt8) : Guarded (List UInt8) :=
  if b.length = width then .ok b else .error .outside

theorem minus_eq {a b : Nat} (h : b ≤ a) : minus a b = .ok (a - b) := if_pos h

theorem times_eq {a b : Nat} (h : a * b ≤ maxSize) : times a b = .ok (a * b) := if_pos h

theorem region?_eq {b : List UInt8} {start stop : Nat} (h : start ≤ stop ∧ stop ≤ b.length) :
    region? b start stop = some ((b.take stop).drop start) := if_pos h

theorem region_eq {b : List UInt8} {start stop : Nat} (h : start ≤ stop ∧ stop ≤ b.length) :
    region b start stop = .ok ((b.take stop).drop start) := by
  rw [region, region?_eq h]

theorem byteAt_eq {b : List UInt8} {i : Nat} (h : i < b.length) : byteAt b i = .ok b[i] := by
  rw [byteAt, List.getElem?_eq_getElem h]

theorem exactly_eq {width : Nat} {b : List UInt8} (h : b.length = width) :
    exactly width b = .ok b := if_pos h

/-- A region of which the size, and how many bytes stand behind it, are known: it exists, and this
is how it is found from the end. -/
theorem exists_region (b : List UInt8) (start stop size behind : Nat)
    (hstart : start + size = stop) (hstop : stop + behind = b.length) :
    ∃ bytes, region b start stop = .ok bytes ∧
      ofBytes bytes = ((ofBytes b).drop behind).take size := by
  have hin : start ≤ stop ∧ stop ≤ b.length := by omega
  have hslot : (ofBytes b).slot start stop =
      some (((ofBytes b).drop ((ofBytes b).length - stop)).take (stop - start)) :=
    if_pos (by simpa using hin)
  obtain ⟨-, -, hpart⟩ := slot_eq_some_iff.1 hslot
  rw [toBytes_ofBytes, length_ofBytes, show b.length - stop = behind by omega,
    show stop - start = size by omega] at hpart
  exact ⟨_, region_eq hin, hpart.symm⟩

/-! ### Payloads -/

/-- The bytes in front of the tag. -/
def front (b : List UInt8) : Guarded (List UInt8) := region b 0 (b.length - 1)

/-- The bytes in front of the last `n`. -/
def before (n : Nat) (b : List UInt8) : Guarded (List UInt8) := do
  let stop ← minus b.length n
  region b 0 stop

/-- The size at the end of a string. -/
def size (b : List UInt8) : Guarded (Nat × Nat) := .ofExcept (readSize (ofBytes b))

/-- The byte in front of the tag. -/
def single (b : List UInt8) : Guarded (Tail × Nat) := do
  let size ← .ofExcept (fixedExtent b.length 1)
  let i ← minus b.length 2
  let byte ← byteAt b i
  return ([byte], size)

/-- The `width` bytes in front of the tag. -/
def fixed (width : Nat) (b : List UInt8) : Guarded (Tail × Nat) := do
  let size ← .ofExcept (fixedExtent b.length width)
  let stop ← minus b.length 1
  let start ← minus stop width
  let bytes ← region b start stop
  let payload ← exactly width bytes
  return (ofBytes payload, size)

/-- The number in front of the tag. -/
def number (b : List UInt8) : Guarded (Nat × Nat) := do
  let rest ← front b
  let (v, n) ← .ofExcept (Varint.read64 (ofBytes rest))
  return (v, n + 1)

/-- The data in front of a size and the tag. -/
def body (b : List UInt8) : Guarded (Tail × Nat) := do
  let rest ← front b
  let (size, n) ← size rest
  let total ← .ofExcept (extent b.length [1, n, size])
  let stop ← minus b.length 1
  let stop ← minus stop n
  let start ← minus stop size
  let data ← region b start stop
  return (ofBytes data, total)

/-- The bytes of a text with the byte that closes it. -/
def text (b : List UInt8) : Guarded (Tail × Nat) := do
  let rest ← front b
  let (size, n) ← size rest
  let total ← .ofExcept (extent b.length [1, n, size, 1])
  let stop ← minus b.length 1
  let stop ← minus stop n
  let nul ← minus stop 1
  let closing ← byteAt b nul
  let start ← minus nul size
  let data ← region b start nul
  return (ofBytes (data ++ [closing]), total)

/-- The data and the table in front of their sizes and the tag. -/
def sections (b : List UInt8) : Guarded (Sections × Nat) := do
  let rest ← front b
  let (tableSize, n) ← size rest
  let rest ← before n rest
  let (dataSize, m) ← size rest
  let total ← .ofExcept (extent b.length [1, n, m, tableSize, dataSize])
  let tableEnd ← minus b.length 1
  let tableEnd ← minus tableEnd n
  let tableEnd ← minus tableEnd m
  let tableStart ← minus tableEnd tableSize
  let dataStart ← minus tableStart dataSize
  let data ← region b dataStart tableStart
  let table ← region b tableStart tableEnd
  return (⟨ofBytes data, table, dataSize⟩, total)

/-- The payload in front of a tag, and the size of the value. -/
def payload : (tag : Tag) → List UInt8 → Guarded (tag.Payload × Nat)
  | .undefined => fun _ => .ok ((), 0)
  | .boolTrue | .boolFalse => fun _ => .ok ((), 1)
  | .byte => single
  | .int16 | .int32 | .int64 | .uint16 | .uint32 | .uint64 => number
  | .bin64 => fixed 8
  | .bin128 => fixed 16
  | .bin256 => fixed 32
  | .float32 => fixed 4
  | .float64 => fixed 8
  | .bytes | .struct => body
  | .string => text
  | .list | .bigList | .message | .bigMessage => sections

variable {b : List UInt8}

theorem tail_ofBytes (b : List UInt8) : (ofBytes b).tail = ofBytes (b.take (b.length - 1)) := by
  rw [ofBytes, ofBytes, ← List.dropLast_eq_take, List.tail_reverse]

theorem front_eq (b : List UInt8) : front b = .ok (b.take (b.length - 1)) := by
  rw [front, region_eq (by omega), List.drop_zero]

theorem exists_before {n : Nat} (h : n ≤ b.length) :
    ∃ rest, before n b = .ok rest ∧ ofBytes rest = (ofBytes b).drop n := by
  obtain ⟨rest, hregion, hrest⟩ := exists_region b 0 (b.length - n) (b.length - n) n (by omega) (by omega)
  rw [List.take_of_length_le (by simp)] at hrest
  exact ⟨rest, by rw [before, minus_eq h, ok_bind, hregion], hrest⟩

theorem number_eq (b : List UInt8) : number b = .ofExcept (readNumber (ofBytes b)) := by
  rw [number, front_eq, ok_bind, ← tail_ofBytes]
  exact Guarded.bind_ofExcept fun _ _ => rfl

theorem fixed_eq (width : Nat) (b : List UInt8) :
    fixed width b = .ofExcept (readFixed width (ofBytes b)) := by
  rw [fixed, readFixed, length_ofBytes]
  refine Guarded.bind_ofExcept fun size hsize => ?_
  have hlen : width + 1 ≤ b.length := (ite_eq_ok_iff.1 hsize).2
  obtain ⟨bytes, hregion, hbytes⟩ := exists_region b (b.length - 1 - width) (b.length - 1) width 1
    (by omega) (by omega)
  rw [List.drop_one] at hbytes
  have hwidth : bytes.length = width := by
    rw [← length_ofBytes, hbytes]
    simp
    omega
  rw [minus_eq (by omega), ok_bind, minus_eq (by omega), ok_bind, hregion, ok_bind,
    exactly_eq hwidth, ok_bind, hbytes]
  rfl

theorem single_eq (b : List UInt8) : single b = .ofExcept (readFixed 1 (ofBytes b)) := by
  rw [single, readFixed, length_ofBytes]
  refine Guarded.bind_ofExcept fun size hsize => ?_
  have hlen : 2 ≤ b.length := (ite_eq_ok_iff.1 hsize).2
  have hbyte : (ofBytes b).tail.take 1 = [b[b.length - 2]] := by
    rw [List.take_one, List.head?_tail, ofBytes, List.getElem?_reverse (by omega),
      show b.length - 1 - 1 = b.length - 2 by omega, List.getElem?_eq_getElem (by omega)]
    rfl
  rw [minus_eq hlen, ok_bind, byteAt_eq (by omega), ok_bind, hbyte]
  rfl

theorem body_eq (b : List UInt8) : body b = .ofExcept (readRegion (ofBytes b)) := by
  rw [body, front_eq, ok_bind, size, ← tail_ofBytes]
  refine Guarded.bind_ofExcept fun r _ => ?_
  obtain ⟨size, n⟩ := r
  dsimp only
  rw [length_ofBytes]
  refine Guarded.bind_ofExcept fun total htotal => ?_
  obtain ⟨hsum, hle, -⟩ := extent_eq_ok_iff.1 htotal
  simp only [Wire.total] at hsum
  obtain ⟨data, hregion, hdata⟩ := exists_region b (b.length - 1 - n - size)
    (b.length - 1 - n) size (1 + n) (by omega) (by omega)
  rw [minus_eq (by omega), ok_bind, minus_eq (by omega), ok_bind, minus_eq (by omega), ok_bind,
    hregion, ok_bind, hdata, ← List.drop_drop, List.drop_one]
  rfl

theorem text_eq (b : List UInt8) : text b = .ofExcept (readText (ofBytes b)) := by
  rw [text, front_eq, ok_bind, size, ← tail_ofBytes]
  refine Guarded.bind_ofExcept fun r _ => ?_
  obtain ⟨size, n⟩ := r
  dsimp only
  rw [length_ofBytes]
  refine Guarded.bind_ofExcept fun total htotal => ?_
  obtain ⟨hsum, hle, -⟩ := extent_eq_ok_iff.1 htotal
  simp only [Wire.total] at hsum
  obtain ⟨data, hregion, hdata⟩ := exists_region b (b.length - 1 - n - 1 - size)
    (b.length - 1 - n - 1) size (1 + n + 1) (by omega) (by omega)
  rw [minus_eq (by omega), ok_bind, minus_eq (by omega), ok_bind, minus_eq (by omega), ok_bind,
    byteAt_eq (by omega), ok_bind, minus_eq (by omega), ok_bind, hregion, ok_bind, ofBytes_concat,
    hdata]
  have hclosed : (ofBytes b).tail.drop n =
      b[b.length - 1 - n - 1] :: (ofBytes b).drop (1 + n + 1) := by
    rw [← List.drop_one, List.drop_drop, List.drop_eq_getElem_cons (by simp; omega)]
    simp only [ofBytes, List.getElem_reverse]
    congr 2
    omega
  rw [hclosed]
  rfl

theorem sections_eq (b : List UInt8) : sections b = .ofExcept (readSections (ofBytes b)) := by
  rw [sections, front_eq, ok_bind, size, ← tail_ofBytes]
  refine Guarded.bind_ofExcept fun r htable => ?_
  obtain ⟨tableSize, n⟩ := r
  have hn : n ≤ (b.take (b.length - 1)).length := by
    have := (readSize_eq_ok_iff.1 htable).1.le_length
    rwa [tail_ofBytes, length_ofBytes] at this
  obtain ⟨rest, hbefore, hrest⟩ := exists_before hn
  rw [← tail_ofBytes] at hrest
  dsimp only
  rw [hbefore, ok_bind, size, hrest]
  refine Guarded.bind_ofExcept fun r _ => ?_
  obtain ⟨dataSize, m⟩ := r
  dsimp only
  rw [length_ofBytes]
  refine Guarded.bind_ofExcept fun total htotal => ?_
  obtain ⟨hsum, hle, -⟩ := extent_eq_ok_iff.1 htotal
  simp only [Wire.total] at hsum
  obtain ⟨data, hdataRegion, hdata⟩ := exists_region b
    (b.length - 1 - n - m - tableSize - dataSize) (b.length - 1 - n - m - tableSize) dataSize
    (1 + n + m + tableSize) (by omega) (by omega)
  obtain ⟨table, htableRegion, htable⟩ := exists_region b
    (b.length - 1 - n - m - tableSize) (b.length - 1 - n - m) tableSize (1 + n + m)
    (by omega) (by omega)
  rw [← List.drop_drop, ← List.drop_drop, ← List.drop_drop, List.drop_one] at hdata
  rw [← List.drop_drop, ← List.drop_drop, List.drop_one] at htable
  rw [minus_eq (by omega), ok_bind, minus_eq (by omega), ok_bind, minus_eq (by omega), ok_bind,
    minus_eq (by omega), ok_bind, minus_eq (by omega), ok_bind, hdataRegion, ok_bind, htableRegion,
    ok_bind, hdata, ← toBytes_ofBytes table, htable]
  rfl

theorem payload_eq (tag : Tag) (b : List UInt8) :
    payload tag b = .ofExcept (readPayload tag (ofBytes b)) := by
  cases tag with
  | undefined | boolTrue | boolFalse => rfl
  | byte => exact single_eq b
  | int16 | int32 | int64 | uint16 | uint32 | uint64 => exact number_eq b
  | bin64 | bin128 | bin256 | float32 | float64 => exact fixed_eq _ b
  | bytes | struct => exact body_eq b
  | string => exact text_eq b
  | list | bigList | message | bigMessage => exact sections_eq b

/-! ### Readers -/

variable {α : Type}

/-- The reader of what is made, by positions. -/
def read (make : Maker α) (b : List UInt8) : Guarded (α × Nat) := do
  let tag ← .ofExcept (readTag (ofBytes b))
  match make tag with
  | .error expected => .error (.refused (.invalidType expected tag))
  | .ok make => do
    let (p, n) ← payload tag b
    let v ← .ofExcept (make p)
    return (v, n)

/-- **No check fails** while a payload is taken off and something is made of it. -/
theorem read_eq (make : Maker α) (b : List UInt8) :
    read make b = .ofExcept (make.read (ofBytes b)) := by
  refine Guarded.bind_ofExcept fun tag _ => ?_
  unfold Maker.under
  cases make tag with
  | error expected => rfl
  | ok make =>
    dsimp only
    rw [payload_eq]
    exact Guarded.bind_ofExcept fun r _ => Guarded.bind_ofExcept fun v _ => rfl

end Position

end Backwire.Wire
