import Mathlib
import Backwire.Wire.Tail

/-!
# What a byte string ends in

A reader accepts a byte string because of its last bytes, whatever stands in front of them. So what
a reader accepts is said in two steps: a predicate `F` tells which strings, first byte first, are
written forms, and `t.EndsIn n F` says that the last `n` bytes of `t` are one of them.

A reader that returns `(v, n)` exactly where the string ends in a form of `v` of `n` bytes cannot
depend on anything else, so such an equivalence is the one fact about a reader that the other
modules use.
-/

namespace Backwire.Wire

@[simp] theorem ok_bind {ε α β : Type} (a : α) (f : α → Except ε β) :
    (Except.ok a >>= f : Except ε β) = f a := rfl

/-- A calculation in two steps succeeds when both steps do. -/
theorem bind_eq_ok_iff {ε α β : Type} {x : Except ε α} {f : α → Except ε β} {b : β} :
    (x >>= f) = .ok b ↔ ∃ a, x = .ok a ∧ f a = .ok b := by
  cases x with
  | error e => exact ⟨nofun, fun ⟨_, h, _⟩ => nomatch h⟩
  | ok a => exact ⟨fun h => ⟨a, rfl, h⟩, fun ⟨_, h, h'⟩ => by cases h; exact h'⟩

/-- A check succeeds when its condition holds. -/
theorem ite_eq_ok_iff {ε α : Type} {P : Prop} [Decidable P] {a b : α} {err : ε} :
    (if P then Except.ok a else .error err) = .ok b ↔ b = a ∧ P := by
  split
  · rename_i h
    exact ⟨fun hab => by cases hab; exact ⟨rfl, h⟩, fun hab => hab.1 ▸ rfl⟩
  · rename_i h
    exact ⟨fun hab => (by cases hab), fun hab => absurd hab.2 h⟩

theorem error_bind {ε α β : Type} (e : ε) (f : α → Except ε β) :
    (Except.error e >>= f : Except ε β) = .error e := rfl

/-- A calculation in two steps fails where one of them does. -/
theorem bind_eq_error_iff {ε α β : Type} {x : Except ε α} {f : α → Except ε β} {e : ε} :
    (x >>= f) = .error e ↔ x = .error e ∨ ∃ a, x = .ok a ∧ f a = .error e := by
  cases x with
  | error e' => simp [error_bind]
  | ok a => simp

/-- A check fails when its condition does not hold. -/
theorem ite_eq_error_iff {ε α : Type} {P : Prop} [Decidable P] {a : α} {e err : ε} :
    (if P then Except.ok a else .error err) = .error e ↔ err = e ∧ ¬P := by
  split <;> simp [*]

theorem pure_eq_ok_iff {ε α : Type} {a b : α} : (pure a : Except ε α) = .ok b ↔ a = b :=
  ⟨fun h => by cases h; rfl, fun h => h ▸ rfl⟩

namespace Tail

@[simp] theorem ofBytes_nil : ofBytes [] = [] := rfl

@[simp] theorem ofBytes_singleton (b : UInt8) : ofBytes [b] = [b] := rfl

@[simp] theorem length_ofBytes (bytes : List UInt8) : (ofBytes bytes).length = bytes.length :=
  List.length_reverse

@[simp] theorem length_toBytes (t : Tail) : (toBytes t).length = t.length := List.length_reverse

theorem ofBytes_cons (b : UInt8) (bytes : List UInt8) :
    ofBytes (b :: bytes) = ofBytes bytes ++ [b] := List.reverse_cons

/-- The last byte comes first. -/
theorem ofBytes_concat (bytes : List UInt8) (b : UInt8) :
    ofBytes (bytes ++ [b]) = b :: ofBytes bytes := ofBytes_append bytes [b]

/-- **The last `n` bytes of `t` are as `F` says.** -/
def EndsIn (t : Tail) (n : Nat) (F : List UInt8 → Prop) : Prop :=
  ∃ e rest, t = ofBytes e ++ rest ∧ e.length = n ∧ F e

variable {t : Tail} {n : Nat} {b c : UInt8} {F G : List UInt8 → Prop}

theorem EndsIn.intro {e : List UInt8} (rest : Tail) (h : F e) :
    (ofBytes e ++ rest).EndsIn e.length F := ⟨e, rest, rfl, rfl, h⟩

theorem EndsIn.imp (h : t.EndsIn n F) (hFG : ∀ e, e.length = n → F e → G e) : t.EndsIn n G := by
  obtain ⟨e, rest, ht, hn, hF⟩ := h
  exact ⟨e, rest, ht, hn, hFG e hn hF⟩

/-- The bytes in question are the last `n`. -/
theorem endsIn_iff_take : t.EndsIn n F ↔ n ≤ t.length ∧ F (toBytes (t.take n)) := by
  constructor
  · rintro ⟨e, rest, rfl, rfl, h⟩
    refine ⟨by simp, ?_⟩
    rw [List.take_left' (length_ofBytes e), toBytes_ofBytes]
    exact h
  · rintro ⟨hn, h⟩
    refine ⟨toBytes (t.take n), t.drop n, ?_, by simp [hn], h⟩
    rw [ofBytes_toBytes, List.take_append_drop]

theorem endsIn_ofBytes {b : List UInt8} :
    (ofBytes b).EndsIn n F ↔ ∃ p e, b = p ++ e ∧ e.length = n ∧ F e := by
  constructor
  · rintro ⟨e, rest, ht, hn, h⟩
    refine ⟨toBytes rest, e, ?_, hn, h⟩
    rw [← toBytes_ofBytes b, ht, toBytes, List.reverse_append]
    exact congrArg _ (toBytes_ofBytes e)
  · rintro ⟨p, e, rfl, hn, h⟩
    exact ⟨e, ofBytes p, ofBytes_append p e, hn, h⟩

theorem EndsIn.le_length (h : t.EndsIn n F) : n ≤ t.length := (endsIn_iff_take.1 h).1

/-- Nothing but the bytes in question matters. -/
theorem EndsIn.take (h : t.EndsIn n F) (front : Tail) : EndsIn (t.take n ++ front) n F := by
  have hlen : (t.take n).length = n := List.length_take_of_le h.le_length
  rw [endsIn_iff_take, List.take_left' hlen, List.length_append, hlen]
  exact ⟨Nat.le_add_right n _, (endsIn_iff_take.1 h).2⟩

/-- What stands in front of the bytes in question does not matter. -/
theorem endsIn_append (h : n ≤ t.length) (front : Tail) :
    (t ++ front).EndsIn n F ↔ t.EndsIn n F := by
  rw [endsIn_iff_take, endsIn_iff_take, List.take_append_of_le_length h, List.length_append]
  exact ⟨fun ⟨_, hF⟩ => ⟨h, hF⟩, fun ⟨_, hF⟩ => ⟨by omega, hF⟩⟩

/-- A condition that is not about the bytes can be asked separately. -/
theorem endsIn_const_and {P : Prop} : t.EndsIn n (fun e => P ∧ F e) ↔ P ∧ t.EndsIn n F := by
  constructor
  · rintro ⟨e, rest, ht, hn, hP, hF⟩
    exact ⟨hP, e, rest, ht, hn, hF⟩
  · rintro ⟨hP, e, rest, ht, hn, hF⟩
    exact ⟨e, rest, ht, hn, hP, hF⟩

/-- A condition on the number of bytes can be asked separately. -/
theorem endsIn_and_length {P : Nat → Prop} :
    t.EndsIn n (fun e => F e ∧ P e.length) ↔ t.EndsIn n F ∧ P n := by
  constructor
  · rintro ⟨e, rest, ht, rfl, hF, hP⟩
    exact ⟨⟨e, rest, ht, rfl, hF⟩, hP⟩
  · rintro ⟨⟨e, rest, ht, rfl, hF⟩, hP⟩
    exact ⟨e, rest, ht, rfl, hF, hP⟩

/-- The last byte, and what stands in front of it. -/
theorem endsIn_concat :
    EndsIn (b :: t) n (fun e => ∃ p, e = p ++ [c] ∧ F p) ↔
      b = c ∧ ∃ m, n = m + 1 ∧ t.EndsIn m F := by
  constructor
  · rintro ⟨_, rest, ht, rfl, p, rfl, hF⟩
    rw [ofBytes_concat, List.cons_append, List.cons.injEq] at ht
    exact ⟨ht.1, p.length, by simp, p, rest, ht.2, rfl, hF⟩
  · rintro ⟨rfl, _, rfl, p, rest, rfl, rfl, hF⟩
    exact ⟨p ++ [b], rest, by rw [ofBytes_concat, List.cons_append], by simp, p, rfl, hF⟩

end Tail

end Backwire.Wire
