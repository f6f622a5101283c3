import Backwire.Proofs.Wire.View

/-!
# Payloads

Whatever is asked for, a reader does the same two things with a string: it takes off the payload
that stands in front of the tag, which the tag alone decides, and it makes a value of the payload,
for which it does not look at the string again. A `Maker` is this second part, and `Maker.read` is
the reader it belongs to.

So what is known of payloads is known of every reader. A payload of `n` bytes is decided by the
last `n` bytes of the string (`exists_payloadForm`), and it is missed only where the string is too
short or a size is wrong (`readPayload_error`).
-/

namespace Backwire.Wire

open Tail

/-! ### Taking off a payload -/

/-- What stands in front of a tag. -/
abbrev Tag.Payload : Tag → Type
  | undefined | boolTrue | boolFalse => Unit
  | int16 | int32 | int64 | uint16 | uint32 | uint64 => Nat
  | byte | bin64 | bin128 | bin256 | float32 | float64 | bytes | string | struct => Tail
  | list | bigList | message | bigMessage => Sections

/-- The number in front of the tag, and the size of the value. -/
def readNumber : Reader Nat := fun t => do
  let (v, n) ← Varint.read64 t.tail
  return (v, n + 1)

/-- The bytes of a text with the byte that closes it, and the size of the value. -/
def readText : Reader Tail := fun t => do
  let (size, n) ← readSize t.tail
  let total ← extent t.length [1, n, size, 1]
  return ((t.tail.drop n).take (size + 1), total)

/-- The payload in front of a tag, and the size of the value. -/
def readPayload : (tag : Tag) → Reader tag.Payload
  | .undefined => fun _ => .ok ((), 0)
  | .boolTrue | .boolFalse => fun _ => .ok ((), 1)
  | .byte => readFixed 1
  | .int16 | .int32 | .int64 | .uint16 | .uint32 | .uint64 => readNumber
  | .bin64 => readFixed 8
  | .bin128 => readFixed 16
  | .bin256 => readFixed 32
  | .float32 => readFixed 4
  | .float64 => readFixed 8
  | .bytes | .struct => readRegion
  | .string => readText
  | .list | .bigList | .message | .bigMessage => readSections

/-! ### Where a payload is found -/

theorem readNumber_eq_ok_iff {tag : Tag} {t : Tail} {v n : Nat} :
    readNumber (tag.toByte :: t) = .ok (v, n) ↔
      EndsIn (tag.toByte :: t) n (fun e => v < 0x10000000000000000 ∧ NumberForm tag v e) := by
  rw [endsIn_const_and, and_comm, ← endsIn_number]
  simp only [readNumber, List.tail_cons, bind_eq_ok_iff, Prod.exists, pure_eq_ok_iff, Prod.mk.injEq]
  constructor
  · rintro ⟨_, m, h, rfl, rfl⟩
    exact ⟨m, rfl, h⟩
  · rintro ⟨m, rfl, h⟩
    exact ⟨v, m, h, rfl, rfl⟩

theorem readText_eq_ok_iff {b : UInt8} {t p : Tail} {n : Nat} :
    readText (b :: t) = .ok (p, n) ↔ EndsIn (b :: t) n (ClosedForm b 1 (toBytes p)) := by
  simp only [endsIn_closed, readText, List.tail_cons, List.length_cons, bind_eq_ok_iff, Prod.exists,
    pure_eq_ok_iff, Prod.mk.injEq, ofBytes_toBytes]
  constructor
  · rintro ⟨size, m, hsize, _, hextent, hp, rfl⟩
    exact ⟨size, m, hsize, hextent, hp⟩
  · rintro ⟨size, m, hsize, hextent, hp⟩
    exact ⟨size, m, hsize, n, hextent, hp, rfl⟩

/-- **A payload of `n` bytes is decided by the last `n` bytes.** -/
theorem exists_payloadForm {tag : Tag} (htag : tag ≠ .undefined) (p : tag.Payload) :
    ∃ F : List UInt8 → Prop, ∀ t n,
      readPayload tag (tag.toByte :: t) = .ok (p, n) ↔ EndsIn (tag.toByte :: t) n F := by
  have hunit (t : Tail) (n : Nat) :
      (Except.ok ((), 1) : Except WireError (Unit × Nat)) = .ok ((), n) ↔
        EndsIn (tag.toByte :: t) n (fun e => ∃ p, e = p ++ [tag.toByte] ∧ p = []) := by
    rw [endsIn_concat, Except.ok.injEq, Prod.mk.injEq]
    constructor
    · rintro ⟨-, rfl⟩
      exact ⟨rfl, 0, rfl, [], t, rfl, rfl, rfl⟩
    · rintro ⟨-, _, rfl, _, _, -, rfl, rfl⟩
      exact ⟨rfl, rfl⟩
  have hfixed (width : Nat) (p t : Tail) (n : Nat) :
      readFixed width (tag.toByte :: t) = .ok (p, n) ↔
        EndsIn (tag.toByte :: t) n (fun e => p.length = width ∧ e = toBytes p ++ [tag.toByte]) := by
    rw [endsIn_const_and, readFixed_eq_ok_iff]
  have hsections (s : Sections) (t : Tail) (n : Nat) :
      readSections (tag.toByte :: t) = .ok (s, n) ↔ EndsIn (tag.toByte :: t) n
        (fun e => s.dataSize = s.data.length ∧ Sealed tag (toBytes s.data) s.table e) := by
    rw [endsIn_const_and, ← readSections_eq_ok_iff]
  cases tag with
  | undefined => exact absurd rfl htag
  | boolTrue | boolFalse => exact ⟨_, hunit⟩
  | byte => exact ⟨_, hfixed 1 p⟩
  | int16 | int32 | int64 | uint16 | uint32 | uint64 => exact ⟨_, fun _ _ => readNumber_eq_ok_iff⟩
  | bin64 | float64 => exact ⟨_, hfixed 8 p⟩
  | bin128 => exact ⟨_, hfixed 16 p⟩
  | bin256 => exact ⟨_, hfixed 32 p⟩
  | float32 => exact ⟨_, hfixed 4 p⟩
  | bytes | struct => exact ⟨_, fun _ _ => readRegion_eq_ok_iff⟩
  | string => exact ⟨_, fun _ _ => readText_eq_ok_iff⟩
  | list | bigList | message | bigMessage => exact ⟨_, hsections p⟩

/-! ### Where no payload is found -/

/-- The string is too short, or a size is wrong. More bytes in front may change that. -/
def WireError.Passing (e : WireError) : Prop := e = .truncated ∨ e = .invalidSize

theorem readGroups_error {limit index : Nat} {t : Tail} {e : WireError}
    (h : Varint.readGroups limit index t = .error e) : e.Passing := by
  induction t generalizing index with
  | nil =>
    cases h
    exact .inl rfl
  | cons b t ih =>
    unfold Varint.readGroups at h
    split at h
    · cases h
      exact .inr rfl
    split at h
    · cases h
      exact .inr rfl
    split at h
    · cases h
    split at h
    · rename_i hrest
      cases h
      exact ih hrest
    · cases h

theorem read32_error {t : Tail} {e : WireError} (h : Varint.read32 t = .error e) : e.Passing := by
  unfold Varint.read32 at h
  split at h
  · rename_i hgroups
    cases h
    exact readGroups_error hgroups
  · exact .inr (ite_eq_error_iff.1 h).1.symm

theorem readSize_error {t : Tail} {e : WireError} (h : readSize t = .error e) : e.Passing := by
  rcases bind_eq_error_iff.1 h with h | ⟨_, -, h⟩
  · exact read32_error h
  · exact .inr (ite_eq_error_iff.1 h).1.symm

theorem extent_error {available : Nat} {parts : List Nat} {e : WireError}
    (h : extent available parts = .error e) : e.Passing :=
  .inr (ite_eq_error_iff.1 h).1.symm

theorem readFixed_error {width : Nat} {t : Tail} {e : WireError}
    (h : readFixed width t = .error e) : e.Passing := by
  rcases bind_eq_error_iff.1 h with h | ⟨_, -, h⟩
  · exact .inl (ite_eq_error_iff.1 h).1.symm
  · cases h

theorem readNumber_error {t : Tail} {e : WireError} (h : readNumber t = .error e) : e.Passing := by
  rcases bind_eq_error_iff.1 h with h | ⟨_, -, h⟩
  · exact readGroups_error h
  · cases h

theorem readRegion_error {t : Tail} {e : WireError} (h : readRegion t = .error e) : e.Passing := by
  rcases bind_eq_error_iff.1 h with h | ⟨_, -, h⟩
  · exact readSize_error h
  rcases bind_eq_error_iff.1 h with h | ⟨_, -, h⟩
  · exact extent_error h
  · cases h

theorem readText_error {t : Tail} {e : WireError} (h : readText t = .error e) : e.Passing := by
  rcases bind_eq_error_iff.1 h with h | ⟨_, -, h⟩
  · exact readSize_error h
  rcases bind_eq_error_iff.1 h with h | ⟨_, -, h⟩
  · exact extent_error h
  · cases h

theorem readSections_error {t : Tail} {e : WireError} (h : readSections t = .error e) :
    e.Passing := by
  rcases bind_eq_error_iff.1 h with h | ⟨_, -, h⟩
  · exact readSize_error h
  rcases bind_eq_error_iff.1 h with h | ⟨_, -, h⟩
  · exact readSize_error h
  rcases bind_eq_error_iff.1 h with h | ⟨_, -, h⟩
  · exact extent_error h
  · cases h

/-- **A payload is missed** only where the string is too short or a size is wrong. -/
theorem readPayload_error {tag : Tag} {t : Tail} {e : WireError}
    (h : readPayload tag t = .error e) : e.Passing := by
  cases tag with
  | undefined | boolTrue | boolFalse => cases h
  | byte | bin64 | bin128 | bin256 | float32 | float64 => exact readFixed_error h
  | int16 | int32 | int64 | uint16 | uint32 | uint64 => exact readNumber_error h
  | bytes | struct => exact readRegion_error h
  | string => exact readText_error h
  | list | bigList | message | bigMessage => exact readSections_error h

/-! ### Making values of payloads -/

/-- How a value is made of the payload under each tag; where a tag is refused, what was expected. -/
abbrev Maker (α : Type) := (tag : Tag) → Except Expected (tag.Payload → Except WireError α)

namespace Maker

variable {α β : Type}

/-- Reads a value under a tag: takes its payload off and makes the value of it. -/
def under (make : Maker α) (tag : Tag) : Reader α := fun t =>
  match make tag with
  | .error expected => .error (.invalidType expected tag)
  | .ok make => do
    let (p, n) ← readPayload tag t
    let v ← make p
    return (v, n)

/-- The reader of what is made. -/
def read (make : Maker α) : Reader α := fun t => do
  let tag ← readTag t
  make.under tag t

/-- Makes another value of the one that was made. -/
def bind (make : Maker α) (f : α → Except WireError β) : Maker β := fun tag =>
  match make tag with
  | .error expected => .error expected
  | .ok make => .ok fun p => make p >>= f

/-- Makes another value of the one that was made, and always succeeds. -/
def map (make : Maker α) (f : α → β) : Maker β := make.bind fun a => .ok (f a)

/-- A reader that goes on with the value it has read still takes off one payload. -/
theorem under_bind (make : Maker α) (f : α → Except WireError β) (tag : Tag) (t : Tail) :
    (make.bind f).under tag t = (do
      let (a, n) ← make.under tag t
      let b ← f a
      return (b, n)) := by
  unfold under bind
  cases make tag with
  | error expected => rfl
  | ok make => simp only [bind_assoc, pure_bind]

theorem under_map (make : Maker α) (f : α → β) (tag : Tag) (t : Tail) :
    (make.map f).under tag t = (do
      let (a, n) ← make.under tag t
      return (f a, n)) := under_bind make _ tag t

theorem read_bind (make : Maker α) (f : α → Except WireError β) (t : Tail) :
    (make.bind f).read t = (do
      let (a, n) ← make.read t
      let b ← f a
      return (b, n)) := by
  simp only [read, under_bind, bind_assoc]

theorem read_map (make : Maker α) (f : α → β) (t : Tail) :
    (make.map f).read t = (do
      let (a, n) ← make.read t
      return (f a, n)) := read_bind make _ t

/-- What is read where the tag is known. -/
theorem read_of_readTag (make : Maker α) {tag : Tag} {t : Tail} (h : readTag t = .ok tag) :
    make.read t = make.under tag t := by
  rw [read, h, ok_bind]

variable {make : Maker α} {t : Tail} {v : α} {n : Nat} {e : WireError}

/-- **A value is read** where the tag is accepted, its payload is there, and a value can be made
of it. -/
theorem read_eq_ok_iff : make.read t = .ok (v, n) ↔ ∃ tag f p, readTag t = .ok tag ∧
    make tag = .ok f ∧ readPayload tag t = .ok (p, n) ∧ f p = .ok v := by
  simp only [read, bind_eq_ok_iff]
  refine exists_congr fun tag => ?_
  cases hmake : make tag with
  | error expected => simp [under, hmake]
  | ok f =>
    simp only [under, hmake, bind_eq_ok_iff, Prod.exists, pure_eq_ok_iff, Prod.mk.injEq]
    constructor
    · rintro ⟨htag, p, _, hp, _, hv, rfl, rfl⟩
      exact ⟨f, p, htag, rfl, hp, hv⟩
    · rintro ⟨_, p, htag, hf, hp, hv⟩
      cases hf
      exact ⟨htag, p, n, hp, v, hv, rfl, rfl⟩

/-- **A reader fails** where there is no tag or it is refused, where the payload is missed, or where
no value can be made of it. -/
theorem read_eq_error_iff : make.read t = .error e ↔ readTag t = .error e ∨
    ∃ tag, readTag t = .ok tag ∧ ((∃ expected, make tag = .error expected ∧
      .invalidType expected tag = e) ∨ ∃ f, make tag = .ok f ∧ (readPayload tag t = .error e ∨
        ∃ p n, readPayload tag t = .ok (p, n) ∧ f p = .error e)) := by
  simp only [read, bind_eq_error_iff]
  refine or_congr_right (exists_congr fun tag => and_congr_right fun _ => ?_)
  cases hmake : make tag with
  | error expected => simp [under, hmake]
  | ok f =>
    have hpure (v : α) (n : Nat) : ¬(pure (v, n) : Except WireError _) = .error e := nofun
    simp only [under, hmake, bind_eq_error_iff, Prod.exists, hpure, and_false, exists_false,
      or_false, reduceCtorEq, false_and, false_or, Except.ok.injEq, exists_eq_left']

end Maker

end Backwire.Wire
