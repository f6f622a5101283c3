import Backwire.Wire.Varint

/-!
# Buffers

A buffer holds the bytes written so far. Writing only ever adds at the end, and taking back
drops bytes from the end, so the contents are kept as a `Tail`. A `Writer` adds to a buffer and
may fail; what it wrote before it failed stays written.
-/

namespace Backwire.Wire

/-- The bytes written so far. -/
structure Buffer where
  /-- The contents, last byte first. -/
  tail : Tail := []
  deriving DecidableEq, Repr

namespace Buffer

/-- A buffer with the given contents, first byte first. -/
def ofBytes (bytes : List UInt8) : Buffer := ⟨Tail.ofBytes bytes⟩

/-- The contents, first byte first. -/
def bytes (buf : Buffer) : List UInt8 := buf.tail.toBytes

/-- How many bytes were written. -/
def size (buf : Buffer) : Nat := buf.tail.length

/-- Whether nothing was written. -/
def isEmpty (buf : Buffer) : Bool := buf.tail.isEmpty

/-- Adds one byte. -/
def push (buf : Buffer) (b : UInt8) : Buffer := ⟨b :: buf.tail⟩

/-- Adds bytes, the first one first. -/
def write (buf : Buffer) (bytes : List UInt8) : Buffer := ⟨bytes.reverse ++ buf.tail⟩

/-- Adds `n` bytes of the same value. -/
def grow (buf : Buffer) (n : Nat) (fill : UInt8 := 0) : Buffer :=
  ⟨List.replicate n fill ++ buf.tail⟩

/-- Adds a reverse varint. -/
def writeVarint (buf : Buffer) (v : Nat) : Buffer := ⟨Varint.encode v ++ buf.tail⟩

/-- Drops everything after the first `size` bytes. -/
def truncate (buf : Buffer) (size : Nat) : Buffer := ⟨buf.tail.drop (buf.size - size)⟩

@[simp] theorem bytes_ofBytes (bytes : List UInt8) : (ofBytes bytes).bytes = bytes :=
  Tail.toBytes_ofBytes bytes

@[simp] theorem bytes_push (buf : Buffer) (b : UInt8) : (buf.push b).bytes = buf.bytes ++ [b] := by
  simp [push, bytes, Tail.toBytes]

@[simp] theorem bytes_write (buf : Buffer) (bs : List UInt8) :
    (buf.write bs).bytes = buf.bytes ++ bs := by
  simp [write, bytes, Tail.toBytes]

@[simp] theorem bytes_truncate (buf : Buffer) (size : Nat) :
    (buf.truncate size).bytes = buf.bytes.take size := by
  simp only [truncate, bytes, Tail.toBytes, Buffer.size]
  rw [List.reverse_drop]
  rcases Nat.le_total size buf.tail.length with h | h
  · rw [show buf.tail.length - (buf.tail.length - size) = size by omega]
  · rw [show buf.tail.length - (buf.tail.length - size) = buf.tail.length by omega,
      List.take_of_length_le (by simp), List.take_of_length_le (by simp [h])]

end Buffer

/-- An action that adds to a buffer and may fail. -/
abbrev Writer (α : Type) := EStateM WireError Buffer α

/-- The result of a fallible calculation that touches no buffer. -/
def Writer.ofExcept {α : Type} : Except WireError α → Writer α
  | .ok a => pure a
  | .error e => throw e

/-- Runs a writer. -/
def Writer.exec {α : Type} (w : Writer α) (buf : Buffer) : Except WireError α × Buffer :=
  match w buf with
  | .ok a buf' => (.ok a, buf')
  | .error e buf' => (.error e, buf')

end Backwire.Wire
