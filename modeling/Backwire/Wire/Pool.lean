import Backwire.Wire.Buffer

/-!
# Pools of buffers

A pool keeps buffers that are not in use, so that their storage can be used again. A buffer is
emptied when it is given back. One whose storage grew beyond a limit is not kept, and neither is
one more than the pool is meant to hold. The buffer taken out is the one given back last.
-/

namespace Backwire.Wire

/-- A buffer together with the storage set aside for it. -/
structure Storage where
  /-- The buffer. -/
  buffer : Buffer := {}
  /-- The bytes the storage has room for. -/
  capacity : Nat := 0
  deriving DecidableEq, Repr

namespace Storage

/-- Adds bytes, for which the storage grows if it has to. -/
def write (s : Storage) (bytes : List UInt8) : Storage :=
  let buffer := s.buffer.write bytes
  ⟨buffer, max s.capacity buffer.size⟩

/-- Drops the contents and keeps the storage. -/
def reset (s : Storage) : Storage := { s with buffer := {} }

end Storage

/-- Buffers not in use, the one given back last in front, and how many and how large they may
be. -/
structure Pool where
  /-- The buffers not in use. -/
  free : List Storage := []
  /-- The number of buffers to keep. -/
  maxRetained : Nat := 64
  /-- The largest storage to keep. -/
  maxCapacity : Nat := 1048576
  deriving DecidableEq, Repr

namespace Pool

/-- How many buffers are not in use. -/
def idle (p : Pool) : Nat := p.free.length

/-- Takes a buffer out of the pool, or makes one. -/
def acquire (p : Pool) : Storage × Pool :=
  match p.free with
  | [] => ({}, p)
  | s :: rest => (s, { p with free := rest })

/-- Gives a buffer back. -/
def release (p : Pool) (s : Storage) : Pool :=
  if p.maxCapacity < s.capacity then p
  else if p.free.length < p.maxRetained then { p with free := s.reset :: p.free }
  else p

end Pool

end Backwire.Wire
