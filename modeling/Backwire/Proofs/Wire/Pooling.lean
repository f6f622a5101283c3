import Backwire.Wire.Pool
import Mathlib.Logic.Relation

/-!
# What a pool of buffers keeps

Buffers go in and out of a pool in any order. They are taken out and given back, written to and
reset while they are in use, and some come from elsewhere, with storage of any size. What stands in
the pool is empty and small enough, and not more than it is meant to hold: taking a buffer out and
giving one back keep this (`Pool.Keeps.acquire`, `Pool.Keeps.release`), whatever was done to the
buffer, and nothing else concerns the pool. So it holds of every run (`PoolUse.keeps_of_reaches`).
-/

namespace Backwire.Wire

open Relation

/-! ### One call -/

namespace Pool

variable {p : Pool} {s : Storage}

/-- **Whether a buffer that is given back is kept.** -/
def Admits (p : Pool) (s : Storage) : Prop := s.capacity ≤ p.maxCapacity ∧ p.idle < p.maxRetained

instance (p : Pool) (s : Storage) : Decidable (p.Admits s) := inferInstanceAs (Decidable (_ ∧ _))

theorem release_eq (p : Pool) (s : Storage) : p.release s =
    if p.Admits s then { p with free := s.reset :: p.free } else p := by
  by_cases h : p.Admits s
  · rw [if_pos h]
    exact (if_neg (Nat.not_lt.2 h.1)).trans (if_pos h.2)
  · rw [if_neg h, release]
    split
    · rfl
    · next hsmall => exact if_neg fun hfew => h ⟨Nat.not_lt.1 hsmall, hfew⟩

/-- A buffer more is idle if the one that is given back is kept. -/
theorem idle_release (p : Pool) (s : Storage) :
    (p.release s).idle = if p.Admits s then p.idle + 1 else p.idle := by
  rw [release_eq]
  split <;> rfl

/-- A buffer less is idle, if there was one. -/
theorem idle_acquire (p : Pool) : p.acquire.2.idle = p.idle - 1 := by
  obtain ⟨free, _, _⟩ := p
  cases free <;> rfl

/-- **What a pool keeps** between calls, if these are its limits: few, small and empty buffers. -/
structure Keeps (maxRetained maxCapacity : Nat) (p : Pool) : Prop where
  retained : p.maxRetained = maxRetained
  largest : p.maxCapacity = maxCapacity
  empty : ∀ s ∈ p.free, s.buffer = {}
  small : ∀ s ∈ p.free, s.capacity ≤ maxCapacity
  few : p.idle ≤ maxRetained

namespace Keeps

variable {maxRetained maxCapacity : Nat}

/-- **Taking a buffer out** gives an empty one that is small, and leaves what the pool keeps. -/
theorem acquire (h : p.Keeps maxRetained maxCapacity) :
    p.acquire.1.buffer = {} ∧ p.acquire.1.capacity ≤ maxCapacity ∧
      p.acquire.2.Keeps maxRetained maxCapacity := by
  have hidle := p.idle_acquire
  have hfew := h.few
  obtain ⟨free, _, _⟩ := p
  cases free with
  | nil => exact ⟨rfl, Nat.zero_le _, h⟩
  | cons s rest =>
    obtain ⟨hempty, hrest⟩ := List.forall_mem_cons.1 h.empty
    obtain ⟨hsmall, hothers⟩ := List.forall_mem_cons.1 h.small
    exact ⟨hempty, hsmall, h.retained, h.largest, hrest, hothers, by omega⟩

/-- **Giving a buffer back** leaves what the pool keeps, whatever the buffer is. -/
theorem release (h : p.Keeps maxRetained maxCapacity) (s : Storage) :
    (p.release s).Keeps maxRetained maxCapacity := by
  rw [release_eq]
  split
  · next hadmits =>
    obtain ⟨hsmall, hfew⟩ := hadmits
    refine ⟨h.retained, h.largest, List.forall_mem_cons.2 ⟨rfl, h.empty⟩,
      List.forall_mem_cons.2 ⟨?_, h.small⟩, ?_⟩
    · exact h.largest ▸ hsmall
    · exact h.retained ▸ hfew
  · exact h

end Keeps

end Pool

/-! ### Runs -/

/-- **Bytes have been written to a buffer**: they stand behind those it had, and its storage may have
grown. -/
structure Storage.Written (s : Storage) (bytes : List UInt8) (s' : Storage) : Prop where
  buffer : s'.buffer = s.buffer.write bytes
  capacity : s.capacity ≤ s'.capacity

theorem Storage.written_write (s : Storage) (bytes : List UInt8) : s.Written bytes (s.write bytes) :=
  ⟨rfl, Nat.le_max_left ..⟩

/-- A pool, and the buffers that are in use outside of it. -/
structure PoolUse where
  pool : Pool
  held : List Storage

namespace PoolUse

/-- The beginning: nothing is in a pool of these limits, and nothing in use. -/
def start (maxRetained maxCapacity : Nat) : PoolUse := ⟨⟨[], maxRetained, maxCapacity⟩, []⟩

/-- **What may happen** to a pool and the buffers in use. -/
inductive Step : PoolUse → PoolUse → Prop
  /-- A buffer is taken out of the pool. -/
  | acquire (u : PoolUse) : Step u ⟨u.pool.acquire.2, u.pool.acquire.1 :: u.held⟩
  /-- A buffer comes from elsewhere. -/
  | bring (u : PoolUse) (s : Storage) : Step u ⟨u.pool, s :: u.held⟩
  /-- A buffer in use is written to. -/
  | write (p : Pool) (before after : List Storage) {s s' : Storage} {bytes : List UInt8}
      (written : s.Written bytes s') : Step ⟨p, before ++ s :: after⟩ ⟨p, before ++ s' :: after⟩
  /-- A buffer in use loses its contents. -/
  | reset (p : Pool) (before after : List Storage) (s : Storage) :
      Step ⟨p, before ++ s :: after⟩ ⟨p, before ++ s.reset :: after⟩
  /-- A buffer in use is given to the pool. -/
  | release (p : Pool) (before after : List Storage) (s : Storage) :
      Step ⟨p, before ++ s :: after⟩ ⟨p.release s, before ++ after⟩

variable {u u' : PoolUse} {maxRetained maxCapacity : Nat}

theorem Step.keeps (h : Step u u') (hu : u.pool.Keeps maxRetained maxCapacity) :
    u'.pool.Keeps maxRetained maxCapacity := by
  cases h with
  | acquire => exact hu.acquire.2.2
  | bring | write | reset => exact hu
  | release => exact hu.release _

/-- **After every run, the pool keeps what it is meant to.** -/
theorem keeps_of_reaches (h : ReflTransGen Step (start maxRetained maxCapacity) u) :
    u.pool.Keeps maxRetained maxCapacity := by
  induction h with
  | refl => exact ⟨rfl, rfl, nofun, nofun, Nat.zero_le _⟩
  | tail _ hstep ih => exact hstep.keeps ih

end PoolUse

/-- **A pool hands out empty buffers and stays within its limits**, whatever is done in whatever
order.

* All buffers in the pool are empty and no larger than its limit, and not more than its limit.
* A buffer that is taken out is empty, and then one less is idle, if there was one.
* When a buffer in use is given back, one more is idle if and only if its storage is no larger than
  the limit and the pool is not full; otherwise as many are idle as before. -/
theorem pool_within_limits {maxRetained maxCapacity : Nat} {u : PoolUse}
    (h : ReflTransGen PoolUse.Step (.start maxRetained maxCapacity) u) :
    (∀ s ∈ u.pool.free, s.buffer = {} ∧ s.capacity ≤ maxCapacity) ∧ u.pool.idle ≤ maxRetained ∧
    (u.pool.acquire.1.buffer = {} ∧ (0 < u.pool.idle → u.pool.acquire.2.idle + 1 = u.pool.idle) ∧
      (u.pool.idle = 0 → u.pool.acquire.2.idle = 0)) ∧
    ∀ s ∈ u.held,
      ((u.pool.release s).idle = u.pool.idle + 1 ↔
        s.capacity ≤ maxCapacity ∧ u.pool.idle < maxRetained) ∧
      ((u.pool.release s).idle = u.pool.idle ∨ (u.pool.release s).idle = u.pool.idle + 1) := by
  have hkeeps := PoolUse.keeps_of_reaches h
  have hidle := u.pool.idle_acquire
  refine ⟨fun s hs => ⟨hkeeps.empty s hs, hkeeps.small s hs⟩, hkeeps.few,
    ⟨hkeeps.acquire.1, by omega, by omega⟩, fun s _ => ?_⟩
  have hadmits : u.pool.Admits s ↔ s.capacity ≤ maxCapacity ∧ u.pool.idle < maxRetained := by
    rw [Pool.Admits, hkeeps.retained, hkeeps.largest]
  rw [Pool.idle_release, ← hadmits]
  split
  · next hkept => exact ⟨iff_of_true rfl hkept, .inr rfl⟩
  · next hdropped => exact ⟨iff_of_false (by omega) hdropped, .inl rfl⟩

/-! ### A sample -/

/-- A buffer that is written to and given back is idle, and one with too much storage is not. -/
theorem pool_within_limits_sample :
    ReflTransGen PoolUse.Step (.start 1 16) ⟨⟨[⟨{}, 5⟩], 1, 16⟩, [⟨{}, 64⟩]⟩ ∧
      (Pool.release ⟨[⟨{}, 5⟩], 1, 16⟩ ⟨{}, 64⟩).idle = 1 := by
  have hrun : ReflTransGen PoolUse.Step (.start 1 16) ⟨⟨[⟨{}, 5⟩], 1, 16⟩, [⟨{}, 64⟩]⟩ := by
    have hacquired : ReflTransGen PoolUse.Step (.start 1 16) ⟨⟨[], 1, 16⟩, [{}]⟩ :=
      .single (.acquire _)
    have hwritten := hacquired.tail (.write _ [] [] (Storage.written_write _ [1, 2, 3, 4, 5]))
    have hreleased := hwritten.tail (.release _ [] [] _)
    exact hreleased.tail (.bring _ ⟨{}, 64⟩)
  obtain ⟨-, -, -, hrelease⟩ := pool_within_limits hrun
  obtain ⟨hiff, hsame | hmore⟩ := hrelease ⟨{}, 64⟩ List.mem_cons_self
  · exact ⟨hrun, hsame⟩
  · exact absurd (hiff.1 hmore).1 (by decide)

end Backwire.Wire
