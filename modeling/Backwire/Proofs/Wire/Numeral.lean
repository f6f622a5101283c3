import Backwire.Wire.Varint
import Backwire.Proofs.Wire.Ending

/-!
# Numerals

The written form of a number without regard to how it is read: groups of seven bits, the highest
first, every group but the first marked by its high bit. A number has many numerals, since groups
of zeros may stand in front; the writer makes the shortest one.

`read64_eq_ok_iff` says which strings the reader of varints accepts and what it makes of them, and
`numeral_encode` that what the writer writes is a numeral of the number.
-/

namespace Backwire.Wire

open Tail

/-- `Numeral g v`: the bytes `g`, first byte first, write the number `v`. -/
inductive Numeral : List UInt8 → Nat → Prop where
  /-- The highest group is not marked. -/
  | top {b : UInt8} : b.toNat < 128 → Numeral [b] b.toNat
  /-- Every further group is. -/
  | more {g : List UInt8} {v : Nat} {b : UInt8} :
      Numeral g v → 128 ≤ b.toNat → Numeral (g ++ [b]) (b.toNat % 128 + 128 * v)

theorem Numeral.length_pos {g : List UInt8} {v : Nat} (h : Numeral g v) : 0 < g.length := by
  cases h <;> simp

/-- A numeral of `n` groups writes a number of `7 n` bits. -/
theorem Numeral.lt_pow {g : List UInt8} {v : Nat} (h : Numeral g v) : v < 128 ^ g.length := by
  induction h with
  | top hb => simpa using hb
  | @more g v b _ _ ih =>
    rw [List.length_append, List.length_singleton, Nat.pow_succ]
    omega

/-! ### Reading -/

theorem endsIn_numeral_pos {t : Tail} {n v : Nat} (h : t.EndsIn n (Numeral · v)) : 0 < n := by
  obtain ⟨g, _, _, rfl, hg⟩ := h
  exact hg.length_pos

/-- The last byte decides whether a numeral goes on. -/
theorem endsIn_numeral_cons {b : UInt8} {t : Tail} {n v : Nat} :
    EndsIn (b :: t) n (Numeral · v) ↔
      (b.toNat < 128 ∧ n = 1 ∧ v = b.toNat) ∨
        (128 ≤ b.toNat ∧
          ∃ m w, n = m + 1 ∧ v = b.toNat % 128 + 128 * w ∧ t.EndsIn m (Numeral · w)) := by
  constructor
  · rintro ⟨_, rest, ht, rfl, h⟩
    cases h with
    | top hb =>
      obtain ⟨rfl, -⟩ : b = _ ∧ t = rest := by simpa [ofBytes] using ht
      exact .inl ⟨hb, rfl, rfl⟩
    | @more g w c hg hc =>
      rw [ofBytes_concat, List.cons_append, List.cons.injEq] at ht
      obtain ⟨rfl, rfl⟩ := ht
      exact .inr ⟨hc, g.length, w, by simp, rfl, g, rest, rfl, rfl, hg⟩
  · rintro (⟨hb, rfl, rfl⟩ | ⟨hb, _, w, rfl, rfl, g, rest, rfl, rfl, hg⟩)
    · exact ⟨[b], t, rfl, rfl, .top hb⟩
    · exact ⟨g ++ [b], rest, by rw [ofBytes_concat, List.cons_append], by simp, .more hg hb⟩

/-- What one byte contributes to a varint of which `index` groups were read. -/
theorem readGroups_cons_eq_ok_iff {limit index : Nat} {b : UInt8} {t : Tail} {v n : Nat} :
    Varint.readGroups limit index (b :: t) = .ok (v, n) ↔
      index ≠ limit ∧ (index = 9 → b.toNat % 128 ≤ 1) ∧
        ((b.toNat < 128 ∧ n = 1 ∧ v = b.toNat) ∨
          (128 ≤ b.toNat ∧ ∃ m w, n = m + 1 ∧ v = b.toNat % 128 + 128 * w ∧
            Varint.readGroups limit (index + 1) t = .ok (w, m))) := by
  rw [Varint.readGroups]
  by_cases hend : index = limit
  · simp [hend]
  by_cases htenth : index = 9 ∧ 1 < b.toNat % 128
  · simp only [if_neg hend, if_pos htenth]
    exact ⟨nofun, fun ⟨_, h, _⟩ => absurd (h htenth.1) (by omega)⟩
  rw [if_neg hend, if_neg htenth]
  have hone : index = 9 → b.toNat % 128 ≤ 1 := fun h => by omega
  by_cases hlow : b.toNat < 128
  · simp only [if_pos hlow, Except.ok.injEq, Prod.mk.injEq]
    refine ⟨fun ⟨hv, hn⟩ => ⟨hend, hone, .inl ⟨hlow, hn.symm, hv.symm⟩⟩, ?_⟩
    rintro ⟨-, -, ⟨-, rfl, rfl⟩ | ⟨h, -⟩⟩
    · exact ⟨rfl, rfl⟩
    · omega
  · rw [if_neg hlow]
    constructor
    · intro h
      split at h
      · cases h
      · rename_i w m hrest
        cases h
        exact ⟨hend, hone, .inr ⟨by omega, m, w, rfl, rfl, hrest⟩⟩
    · rintro ⟨-, -, ⟨h, -⟩ | ⟨-, m, w, rfl, rfl, hrest⟩⟩
      · exact absurd h hlow
      · rw [hrest]

/-- Reading goes on from group `index`: it accepts numerals whose groups stay within `limit`, and
of which the tenth carries one bit. -/
theorem readGroups_eq_ok_iff {limit : Nat} (hlimit : limit ≤ 10) {index : Nat}
    (hindex : index ≤ limit) {t : Tail} {v n : Nat} :
    Varint.readGroups limit index t = .ok (v, n) ↔
      t.EndsIn n (Numeral · v) ∧ index + n ≤ limit ∧ v < 2 * 128 ^ (9 - index) := by
  induction t generalizing index v n with
  | nil =>
    refine ⟨nofun, fun ⟨h, _⟩ => ?_⟩
    have := endsIn_numeral_pos h
    have := h.le_length
    simp at this
    omega
  | cons b t ih =>
    rw [endsIn_numeral_cons, readGroups_cons_eq_ok_iff]
    have hb := b.toNat_lt
    -- the room left for the value, in terms of the room left for the groups after this one
    have hroom : index < 9 → 128 ^ (9 - index) = 128 * 128 ^ (9 - (index + 1)) := fun _ => by
      rw [show 9 - index = (9 - (index + 1)) + 1 by omega, Nat.pow_succ, Nat.mul_comm]
    have hlast : 9 ≤ index → 128 ^ (9 - index) = 1 := fun _ => by
      rw [show 9 - index = 0 by omega, Nat.pow_zero]
    have hpos : 0 < 128 ^ (9 - (index + 1)) := Nat.pow_pos (by decide)
    constructor
    · rintro ⟨hend, hone, ⟨hlow, rfl, rfl⟩ | ⟨hmark, m, w, rfl, rfl, hrest⟩⟩
      · exact ⟨.inl ⟨hlow, rfl, rfl⟩, by omega, by omega⟩
      · obtain ⟨he, hm, hw⟩ := (ih (by omega)).1 hrest
        have := endsIn_numeral_pos he
        exact ⟨.inr ⟨hmark, m, w, rfl, rfl, he⟩, by omega, by omega⟩
    · rintro ⟨⟨hlow, rfl, rfl⟩ | ⟨hmark, m, w, rfl, rfl, he⟩, hn, hv⟩
      · exact ⟨by omega, fun h => by omega, .inl ⟨hlow, rfl, rfl⟩⟩
      · have := he.elim fun e he => he.elim fun _ he => he.2.1 ▸ he.2.2.length_pos
        refine ⟨by omega, fun h => by omega, .inr ⟨hmark, m, w, rfl, rfl, ?_⟩⟩
        exact (ih (by omega)).2 ⟨he, by omega, by omega⟩

/-- **Varints of 64 bits**: a number below 2⁶⁴ in at most ten groups. -/
theorem read64_eq_ok_iff {t : Tail} {v n : Nat} :
    Varint.read64 t = .ok (v, n) ↔ t.EndsIn n (Numeral · v) ∧ n ≤ 10 ∧ v < 0x10000000000000000 := by
  have hpow : 2 * 128 ^ (9 - 0) = 0x10000000000000000 := by decide
  rw [Varint.read64, readGroups_eq_ok_iff (by decide) (by decide), Nat.zero_add, hpow]

/-- **Varints of 32 bits**: a number below 2³² in at most five groups. -/
theorem read32_eq_ok_iff {t : Tail} {v n : Nat} :
    Varint.read32 t = .ok (v, n) ↔ t.EndsIn n (Numeral · v) ∧ n ≤ 5 ∧ v < 0x100000000 := by
  have hgroups : Varint.readGroups 5 0 t = .ok (v, n) ↔ t.EndsIn n (Numeral · v) ∧ n ≤ 5 := by
    rw [readGroups_eq_ok_iff (by decide) (by decide), Nat.zero_add]
    refine ⟨fun ⟨h, hn, _⟩ => ⟨h, hn⟩, fun ⟨h, hn⟩ => ⟨h, hn, ?_⟩⟩
    obtain ⟨g, _, _, rfl, hg⟩ := h
    have hpow : 128 ^ g.length ≤ 128 ^ 5 := Nat.pow_le_pow_right (by decide) hn
    exact Nat.lt_of_lt_of_le hg.lt_pow (Nat.le_trans hpow (by decide))
  rw [← and_assoc, ← hgroups, Varint.read32]
  cases Varint.readGroups 5 0 t with
  | error e => simp
  | ok p =>
    simp only [Except.ok.injEq]
    split
    · rename_i hp
      exact ⟨fun h => ⟨Except.ok.inj h, by cases h; exact hp⟩, fun h => congrArg _ h.1⟩
    · rename_i hp
      refine ⟨nofun, fun ⟨h, hv⟩ => ?_⟩
      subst h
      exact absurd hv hp

/-! ### Writing -/

/-- What is written for a number is a numeral of it. -/
theorem numeral_encode (v : Nat) : Numeral (toBytes (Varint.encode v)) v := by
  induction v using Nat.strongRecOn with
  | ind v ih =>
    rw [Varint.encode]
    split
    · rename_i h
      have hb : v.toUInt8.toNat = v := by simp; omega
      have := Numeral.top (b := v.toUInt8) (by omega)
      rwa [hb] at this
    · have hb : (v % 128 + 128).toUInt8.toNat = v % 128 + 128 := by simp; omega
      have := (ih (v / 128) (by omega)).more (b := (v % 128 + 128).toUInt8) (by omega)
      rw [hb, show (v % 128 + 128) % 128 + 128 * (v / 128) = v by omega] at this
      rwa [toBytes, List.reverse_cons]

/-- A number of `7 k` bits is written in at most `k` groups. -/
theorem width_le {v k : Nat} (hk : 0 < k) (h : v < 128 ^ k) : Varint.width v ≤ k := by
  induction k generalizing v with
  | zero => omega
  | succ k ih =>
    rcases Nat.lt_or_ge v 128 with hv | hv
    · rw [Varint.width_of_lt hv]
      omega
    · rw [Varint.width_of_le hv]
      have : 0 < k := by
        rcases Nat.eq_zero_or_pos k with rfl | hk'
        · rw [Nat.zero_add, Nat.pow_one] at h
          omega
        · exact hk'
      have := ih this (v := v / 128) (by rw [Nat.pow_succ] at h; omega)
      omega

end Backwire.Wire
