import Backwire.Proofs.Wire.Locality

/-!
# Skipping values

Values that stand one behind the other are passed over by reading the last one and dropping its
bytes, again and again. Every value takes at least its tag, so a string gets shorter with each step;
only the absent value takes nothing (`Maker.eq_zero_iff_of_read`). It is read of the empty string,
where skipping is over anyway, but also of every string that ends in a zero byte, and there skipping
stands still.

The main result says that this is all that can go wrong: skipping comes to the empty string or to
one that cannot be read, unless it comes to a string that ends in a zero byte.
-/

namespace Backwire.Wire

open Tail

variable {t t' : Tail} {n : Nat}

/-! ### What a value takes -/

theorem readTag_eq_undefined_iff : readTag t = .ok .undefined ↔ t.Blank := by
  rw [readTag_eq_ok_iff, Blank]
  simp

theorem readFixed_pos {width : Nat} {p : Tail} (h : readFixed width t = .ok (p, n)) : 0 < n := by
  obtain ⟨size, hsize, h⟩ := bind_eq_ok_iff.1 h
  obtain ⟨rfl, -⟩ := ite_eq_ok_iff.1 hsize
  cases h
  exact Nat.succ_pos _

theorem readNumber_pos {v : Nat} (h : readNumber t = .ok (v, n)) : 0 < n := by
  obtain ⟨_, -, h⟩ := bind_eq_ok_iff.1 h
  cases h
  exact Nat.succ_pos _

/-- The first part of a value is its tag. -/
theorem extent_pos {available : Nat} {parts : List Nat} (h : extent available (1 :: parts) = .ok n) :
    0 < n := by
  obtain ⟨rfl, -⟩ := extent_eq_ok_iff.1 h
  simp [total]

theorem readRegion_pos {p : Tail} (h : readRegion t = .ok (p, n)) : 0 < n := by
  obtain ⟨_, -, h⟩ := bind_eq_ok_iff.1 h
  obtain ⟨_, hextent, h⟩ := bind_eq_ok_iff.1 h
  cases h
  exact extent_pos hextent

theorem readText_pos {p : Tail} (h : readText t = .ok (p, n)) : 0 < n := by
  obtain ⟨_, -, h⟩ := bind_eq_ok_iff.1 h
  obtain ⟨_, hextent, h⟩ := bind_eq_ok_iff.1 h
  cases h
  exact extent_pos hextent

theorem readSections_pos {s : Sections} (h : readSections t = .ok (s, n)) : 0 < n := by
  obtain ⟨_, -, h⟩ := bind_eq_ok_iff.1 h
  obtain ⟨_, -, h⟩ := bind_eq_ok_iff.1 h
  obtain ⟨_, hextent, h⟩ := bind_eq_ok_iff.1 h
  cases h
  exact extent_pos hextent

/-- A payload is counted with its tag, unless the tag is that of the absent value. -/
theorem readPayload_pos {tag : Tag} (htag : tag ≠ .undefined) {p : tag.Payload}
    (h : readPayload tag t = .ok (p, n)) : 0 < n := by
  cases tag with
  | undefined => exact absurd rfl htag
  | boolTrue | boolFalse => cases h; exact Nat.one_pos
  | byte | bin64 | bin128 | bin256 | float32 | float64 => exact readFixed_pos h
  | int16 | int32 | int64 | uint16 | uint32 | uint64 => exact readNumber_pos h
  | bytes | struct => exact readRegion_pos h
  | string => exact readText_pos h
  | list | bigList | message | bigMessage => exact readSections_pos h

/-- **Only the absent value takes nothing.** -/
theorem Maker.eq_zero_iff_of_read {α : Type} {make : Maker α} {v : α}
    (h : make.read t = .ok (v, n)) : n = 0 ↔ t.Blank := by
  obtain ⟨tag, f, p, htag, -, hp, -⟩ := read_eq_ok_iff.1 h
  rw [← readTag_eq_undefined_iff, htag]
  by_cases hne : tag = .undefined
  · subst hne
    cases hp
    simp
  · have hpos := readPayload_pos hne hp
    simp [hne]
    omega

/-! ### The absent value -/

/-- A struct that is absent is made of an empty body. -/
theorem readStructOf_of_blank {fields : Tail → Except WireError (Record × Tail)} {r : Record}
    {rest : Tail} (h : t.Blank) (hfields : fields [] = .ok (r, rest)) :
    readStructOf fields t = .ok (r, 0) := by
  have hstruct : readStruct t = .ok ([], 0) := by
    rw [readStruct_eq, Maker.struct.read_of_readTag (readTag_eq_undefined_iff.2 h)]
    rfl
  simp only [readStructOf, hstruct, ok_bind, hfields]
  rfl

/-- Of an empty body every struct is made. -/
theorem RecordType.readFields_nil (ty : RecordType) : ∃ r, ty.readFields [] = .ok (r, []) := by
  induction ty with
  | empty => exact ⟨_, rfl⟩
  | datum b rest ih =>
    obtain ⟨later, hrest⟩ := ih
    obtain ⟨d, hd⟩ : ∃ d, b.read [] = .ok (d, 0) := by cases b <;> exact ⟨_, rfl⟩
    refine ⟨.datum d later, ?_⟩
    simp only [readFields, hrest, ok_bind, hd]
    rfl
  | record inner rest ihInner ih =>
    obtain ⟨later, hrest⟩ := ih
    obtain ⟨r, hinner⟩ := ihInner
    have hread : readStructOf inner.readFields [] = .ok (r, 0) :=
      readStructOf_of_blank (.inl rfl) hinner
    refine ⟨.record r later, ?_⟩
    simp only [readFields, hrest, ok_bind, hread]
    rfl

/-- **Every reader reads the absent value**, and takes nothing. -/
theorem Reading.run_of_blank (k : Reading) (h : t.Blank) : ∃ v, k.run t = .ok (v, 0) := by
  have hread := k.maker.read_of_readTag (readTag_eq_undefined_iff.2 h)
  rw [← k.run_eq] at hread
  cases k with
  | record ty =>
    obtain ⟨r, hr⟩ := ty.readFields_nil
    exact ⟨r, readStructOf_of_blank h hr⟩
  | builtin b =>
    rw [hread]
    cases b <;> exact ⟨_, rfl⟩
  | _ =>
    rw [hread]
    exact ⟨_, rfl⟩

/-! ### Skipping -/

namespace Reading

variable {k : Reading}

/-- The value at the end is read, and its bytes are dropped. -/
def Skips (k : Reading) (t t' : Tail) : Prop := ∃ v n, k.run t = .ok (v, n) ∧ t' = t.drop n

/-- Skipping is over: nothing is left, or what is left cannot be read. -/
def Over (k : Reading) (t : Tail) : Prop := t = [] ∨ ∃ e, k.run t = .error e

/-- There is only one way to skip. -/
theorem Skips.unique {t₁ t₂ : Tail} (h₁ : k.Skips t t₁) (h₂ : k.Skips t t₂) : t₁ = t₂ := by
  obtain ⟨v, n, hrun, rfl⟩ := h₁
  obtain ⟨v', n', hrun', rfl⟩ := h₂
  rw [hrun] at hrun'
  cases hrun'
  rfl

/-- **Skipping stands still** at the absent value. -/
theorem skips_of_blank (h : t.Blank) : k.Skips t t' ↔ t' = t := by
  obtain ⟨v, hv⟩ := k.run_of_blank h
  constructor
  · rintro ⟨v', n, hrun, rfl⟩
    rw [hv] at hrun
    cases hrun
    rfl
  · rintro rfl
    exact ⟨v, 0, hv, rfl⟩

/-- Anywhere else a step leaves a shorter string. -/
theorem Skips.length_lt (h : k.Skips t t') (ht : ¬t.Blank) : t'.length < t.length := by
  obtain ⟨v, n, hrun, rfl⟩ := h
  rw [run_eq] at hrun
  have hle := Maker.le_length_of_read hrun
  have hne : n ≠ 0 := fun hn => ht ((Maker.eq_zero_iff_of_read hrun).1 hn)
  rw [List.length_drop]
  omega

/-- From a string where skipping stands still it leads nowhere else. -/
theorem eq_of_skips_of_blank (h : Relation.ReflTransGen k.Skips t t') (ht : t.Blank) : t' = t := by
  induction h with
  | refl => rfl
  | tail _ hstep ih =>
    subst ih
    exact (skips_of_blank ht).1 hstep

/-- Where skipping is over and something is left, there is no step. -/
theorem not_skips_of_error {e : WireError} (h : k.run t = .error e) : ¬k.Skips t t' := by
  rintro ⟨v, n, hrun, -⟩
  rw [h] at hrun
  cases hrun

/-- **Skipping comes to an end or to a standstill.** Every step but the last one takes a byte. -/
theorem exists_skips (k : Reading) (t : Tail) :
    ∃ t', Relation.ReflTransGen k.Skips t t' ∧ (t'.Blank ∨ ∃ e, k.run t' = .error e) := by
  induction hlen : t.length using Nat.strongRecOn generalizing t with
  | ind len ih =>
    subst hlen
    by_cases ht : t.Blank
    · exact ⟨t, .refl, .inl ht⟩
    cases hrun : k.run t with
    | error e => exact ⟨t, .refl, .inr ⟨e, hrun⟩⟩
    | ok r =>
      have hstep : k.Skips t (t.drop r.2) := ⟨r.1, r.2, hrun, rfl⟩
      obtain ⟨t', hsteps, hend⟩ := ih _ (hstep.length_lt ht) _ rfl
      exact ⟨t', .head hstep hsteps, hend⟩

/-- Where skipping is over, it does not go on to a string that ends in a zero byte. -/
theorem Over.not_skips_undefined {rest : Tail} (h : k.Over t)
    (hsteps : Relation.ReflTransGen k.Skips t (Tag.undefined.toByte :: rest)) : False := by
  rcases h with rfl | ⟨e, he⟩
  · cases eq_of_skips_of_blank hsteps (.inl rfl)
  · rcases hsteps.cases_head with rfl | ⟨_, hstep, -⟩
    · obtain ⟨v, hv⟩ := k.run_of_blank (.inr ⟨rest, rfl⟩)
      rw [hv] at he
      cases he
    · exact not_skips_of_error he hstep

end Reading

/-- **Skipping makes progress wherever a string does not end in a zero byte.**

* What is read of a string takes none of its bytes exactly if the string is empty or ends in a zero
  byte, and never more than there are.
* At such a string every reader stands still.
* From any string, skipping comes to the empty one or to one that cannot be read, exactly if it
  comes to none that ends in a zero byte. -/
theorem skipping_progresses (k : Reading) (t : Tail) :
    (∀ v n, k.run t = .ok (v, n) → n ≤ t.length ∧ (n = 0 ↔ t.Blank)) ∧
    (t.Blank → ∀ t', k.Skips t t' ↔ t' = t) ∧
    ((∃ t', Relation.ReflTransGen k.Skips t t' ∧ k.Over t') ↔
      ¬∃ rest, Relation.ReflTransGen k.Skips t (Tag.undefined.toByte :: rest)) := by
  refine ⟨fun v n h => ?_, fun ht t' => Reading.skips_of_blank ht, ?_, ?_⟩
  · rw [k.run_eq] at h
    exact ⟨Maker.le_length_of_read h, Maker.eq_zero_iff_of_read h⟩
  · rintro ⟨t', hsteps, hover⟩ ⟨rest, hrest⟩
    have hunique : Relator.RightUnique k.Skips := fun _ _ _ h₁ h₂ => h₁.unique h₂
    rcases Relation.ReflTransGen.total_of_right_unique hunique hsteps hrest with h | h
    · exact hover.not_skips_undefined h
    · obtain rfl := Reading.eq_of_skips_of_blank h (.inr ⟨rest, rfl⟩)
      exact hover.not_skips_undefined .refl
  · intro hnone
    obtain ⟨t', hsteps, (rfl | ⟨rest, rfl⟩) | herror⟩ := k.exists_skips t
    · exact ⟨[], hsteps, .inl rfl⟩
    · exact absurd ⟨rest, hsteps⟩ hnone
    · exact ⟨t', hsteps, .inr herror⟩

/-- Of a zero byte the absent value is read without taking it, and skipping never gets past it. -/
theorem skipping_stuck :
    readExtent (ofBytes [0]) = .ok (.undefined, 0) ∧ validate (ofBytes [0]) = .ok 0 ∧
      ∀ (k : Reading) (t' : Tail), Relation.ReflTransGen k.Skips (ofBytes [0]) t' → ¬k.Over t' := by
  refine ⟨rfl, rfl, fun k t' hsteps hover => ?_⟩
  obtain rfl := Reading.eq_of_skips_of_blank hsteps (.inr ⟨[], rfl⟩)
  have hstays : Relation.ReflTransGen k.Skips (ofBytes [0]) [Tag.undefined.toByte] := .refl
  exact hover.not_skips_undefined hstays

end Backwire.Wire
